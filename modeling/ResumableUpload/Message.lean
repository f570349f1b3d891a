import ResumableUpload.Json.Record
import ResumableUpload.Text.Slashes

/-!
# Messages to and from the server

The four requests of an upload and their replies. An upload is announced, an upload host is looked
for, each part is sent to that host, and a last request joins the parts into a file. Replies come as
JSON; what a reply leaves out has a default, but for the error number of an announcement.
-/

namespace ResumableUpload

/-! ### Requests -/

/-- Announces the upload of a file. -/
structure PrecreateRequest where
  path : String
  size : Nat
  /-- The digest of each part. -/
  blockList : List String
  contentMd5 : String
  sliceMd5 : String
  deriving DecidableEq

/-- Sends a part. -/
structure SliceRequest where
  path : String
  uploadId : String
  partseq : Nat
  offset : Nat
  payload : ByteArray

/-- Joins the parts into a file. -/
structure CreateRequest where
  path : String
  size : Nat
  uploadId : String
  chunkCount : Nat
  /-- The digest of each part, in the order of the parts. -/
  blockList : List String
  deriving DecidableEq

def PrecreateRequest.toJson (r : PrecreateRequest) : Json :=
  .record [("path", .text r.path), ("size", .nat r.size), ("block_list", .texts r.blockList),
    ("content_md5", .text r.contentMd5), ("slice_md5", .text r.sliceMd5)]

def CreateRequest.toJson (r : CreateRequest) : Json :=
  .record [("path", .text r.path), ("size", .nat r.size), ("upload_id", .text r.uploadId),
    ("chunk_count", .nat r.chunkCount), ("block_list", .texts r.blockList)]

/-! ### Replies -/

/-- The file that the server made. -/
structure CreateReply where
  errno : Int := 0
  fsId : Nat := 0
  path : String := ""
  size : Nat := 0
  md5 : String := ""
  ctime : Int := 0
  mtime : Int := 0
  deriving DecidableEq

namespace CreateReply

def fieldNames : List String := ["errno", "fs_id", "path", "size", "md5", "ctime", "mtime"]

def toJson (r : CreateReply) : Json :=
  .record [("errno", .int r.errno), ("fs_id", .nat r.fsId), ("path", .text r.path),
    ("size", .nat r.size), ("md5", .text r.md5), ("ctime", .int r.ctime), ("mtime", .int r.mtime)]

def ofJson? (v : Json) : Option CreateReply := do
  let r ← Json.fields? fieldNames v
  pure {
    errno := ← r.defaulted "errno" (Json.intOfBits? 64) 0
    fsId := ← r.defaulted "fs_id" (Json.natOfBits? 64) 0
    path := ← r.defaulted "path" Json.text? ""
    size := ← r.defaulted "size" (Json.natOfBits? 64) 0
    md5 := ← r.defaulted "md5" Json.text? ""
    ctime := ← r.defaulted "ctime" (Json.intOfBits? 64) 0
    mtime := ← r.defaulted "mtime" (Json.intOfBits? 64) 0 }

end CreateReply

/-- The answer to an announcement. -/
structure PrecreateReply where
  errno : Int
  returnType : Int := 0
  uploadId : String := ""
  blockList : List Nat := []
  /-- The file, if the server has its content already. -/
  info : Option CreateReply := none
  deriving DecidableEq

namespace PrecreateReply

/-- The server has the content already; nothing need be sent. -/
def isRapid (r : PrecreateReply) : Bool := r.returnType == 2

def fieldNames : List String := ["errno", "return_type", "uploadid", "block_list", "info"]

def ofJson? (v : Json) : Option PrecreateReply := do
  let r ← Json.fields? fieldNames v
  pure {
    errno := ← r.required "errno" (Json.intOfBits? 64)
    returnType := ← r.defaulted "return_type" (Json.intOfBits? 32) 0
    uploadId := ← r.defaulted "uploadid" Json.text? ""
    blockList := ← r.defaulted "block_list" (Json.list? (Json.natOfBits? 64)) []
    info := ← r.defaulted "info" (Json.option? CreateReply.ofJson?) none }

end PrecreateReply

/-- The answer to a part. -/
structure SliceReply where
  md5 : String := ""
  errorCode : Int := 0
  errorMessage : String := ""
  requestId : Nat := 0
  deriving DecidableEq

namespace SliceReply

def fieldNames : List String := ["md5", "error_code", "error_msg", "request_id"]

def ofJson? (v : Json) : Option SliceReply := do
  let r ← Json.fields? fieldNames v
  pure {
    md5 := ← r.defaulted "md5" Json.text? ""
    errorCode := ← r.defaulted "error_code" (Json.intOfBits? 64) 0
    errorMessage := ← r.defaulted "error_msg" Json.text? ""
    requestId := ← r.defaulted "request_id" (Json.natOfBits? 64) 0 }

end SliceReply

/-- The hosts that take parts. -/
structure LocateReply where
  errorCode : Int := 0
  errorMessage : String := ""
  host : String := ""
  servers : List String := []
  backupServers : List String := []
  deriving DecidableEq

namespace LocateReply

def isSecure (address : String) : Bool := Text.startsWith address "https://"

def secureServers (r : LocateReply) : List String :=
  ((r.servers ++ r.backupServers).map Text.trimSlashes).filter isSecure

def fieldNames : List String := ["error_code", "error_msg", "host", "servers", "bak_servers"]

def server? (v : Json) : Option String := do
  (← Json.fields? ["server"] v).required "server" Json.text?

def ofJson? (v : Json) : Option LocateReply := do
  let r ← Json.fields? fieldNames v
  pure {
    errorCode := ← r.defaulted "error_code" (Json.intOfBits? 64) 0
    errorMessage := ← r.defaulted "error_msg" Json.text? ""
    host := ← r.defaulted "host" Json.text? ""
    servers := ← r.defaulted "servers" (Json.list? server?) []
    backupServers := ← r.defaulted "bak_servers" (Json.list? server?) [] }

end LocateReply

end ResumableUpload
