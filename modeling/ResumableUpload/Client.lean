import ResumableUpload.Http.Exchange
import ResumableUpload.Json.Reader
import ResumableUpload.Json.Writer
import ResumableUpload.Log
import ResumableUpload.Message
import ResumableUpload.Text.Quoted
import ResumableUpload.Text.Utf8

/-!
# Calls to the server over the web

Each of the four calls becomes one request (`Client.locate`, `precreate`, `slice`, `create`), and
what comes back becomes its result. A reply is looked at in a fixed order: its status, its form as
JSON, the error number in it, and last the values without which it is of no use.
-/

namespace ResumableUpload

/-- The addresses that take calls. -/
structure Client where
  fileApi : String := "https://pan.baidu.com/rest/2.0/xpan/file"
  locateApi : String := "https://d.pcs.baidu.com/rest/2.0/pcs/file"

namespace Client

def userAgent : String := "pan.baidu.com"

def appId : String := "250528"

def sliceApi (baseUrl : String) : String := Text.trimSlashes baseUrl ++ "/rest/2.0/pcs/superfile2"

/-- A request to an address with more in its query; there is none if the address cannot be read. -/
def request? (method : Http.Method) (address : String) (query : List (String × String))
    (body : Http.Body) : Option Http.Request :=
  (Http.Address.read? address).map fun a => ⟨method, a.withQuery query, body⟩

/-! ### Requests -/

def locate (c : Client) (token : String) : Option Http.Request :=
  request? .get c.locateApi
    [("method", "locateupload"), ("appid", appId), ("upload_version", "2.0"),
      ("access_token", token)] .empty

def precreate (c : Client) (token : String) (r : PrecreateRequest) : Option Http.Request :=
  request? .post c.fileApi [("method", "precreate"), ("access_token", token)]
    (.form [("path", r.path), ("size", toString r.size), ("isdir", "0"), ("autoinit", "1"),
      ("rtype", "3"), ("block_list", (Json.texts r.blockList).compact),
      ("content-md5", r.contentMd5), ("slice-md5", r.sliceMd5)])

def slice (boundary baseUrl token : String) (r : SliceRequest) : Option Http.Request :=
  request? .post (sliceApi baseUrl)
    [("method", "upload"), ("access_token", token), ("type", "tmpfile"), ("path", r.path),
      ("uploadid", r.uploadId), ("partseq", toString r.partseq)]
    (.file boundary r.payload)

def create (c : Client) (token : String) (r : CreateRequest) : Option Http.Request :=
  request? .post c.fileApi [("method", "create"), ("access_token", token)]
    (.form [("path", r.path), ("size", toString r.size), ("isdir", "0"), ("rtype", "3"),
      ("uploadid", r.uploadId), ("block_list", (Json.texts r.blockList).compact)])

/-! ### Results -/

def unreadable (body : String) : CallFault :=
  .plain .malformedResponse s!"解析 JSON 响应失败: unexpected content, 响应: {body}"

def lacking (what : String) : CallFault := .plain .malformedResponse what

def fault? (request : Option Http.Request) (o : Http.Outcome) : Option CallFault :=
  match request with
  | none => some (.plain .network "builder error")
  | some r => o.fault? r.address

def receive (request : Option Http.Request) (ofJson? : Json → Option α) (o : Http.Outcome) :
    Except CallFault α :=
  match fault? request o, o with
  | some fault, _ => .error fault
  | none, .reply status bytes =>
    let body := Text.ofUtf8 bytes
    if status.isSuccess then
      match (Json.read? body).bind ofJson? with
      | some v => .ok v
      | none => .error (unreadable body)
    else .error (.ofStatus status body)
  | none, _ => .error (unreadable "")

/-- What is said when hosts are asked for. -/
def locateNotice : LogLine := .info "获取上传服务器地址"

def hosts (r : LocateReply) : Except CallFault (List String) × List LogLine :=
  if r.errorCode ≠ 0 then (.error (.ofErrno r.errorCode r.errorMessage), [])
  else if r.secureServers.isEmpty then
    (.error (lacking "响应中没有可用的 https 上传地址"),
      [.warn s!"locateupload 未返回可用的 https 上传地址: host={r.host}"])
  else (.ok r.secureServers, [.debug s!"上传服务器列表: {Text.quotedList r.secureServers}"])

def located (request : Option Http.Request) (o : Http.Outcome) :
    Except CallFault (List String) × List LogLine :=
  match receive request LocateReply.ofJson? o with
  | .ok r => hosts r
  | .error f => (.error f, [])

/-- What is said when an upload is announced. -/
def precreateNotice (r : PrecreateRequest) : LogLine :=
  .info s!"预上传: path={r.path}, size={r.size}, 分片数={r.blockList.length}"

/-- A reply to an announcement has an identifier unless nothing need be sent. -/
def checkPrecreate (r : PrecreateReply) : Except CallFault PrecreateReply :=
  if r.errno ≠ 0 then .error (.ofErrno r.errno "precreate 失败")
  else if !r.isRapid && r.uploadId.isEmpty then .error (lacking "precreate 响应缺少 uploadid")
  else .ok r

def announced (request : Option Http.Request) (o : Http.Outcome) :
    Except CallFault PrecreateReply :=
  (receive request PrecreateReply.ofJson? o).bind checkPrecreate

def checkSlice (partseq : Nat) (r : SliceReply) : Except CallFault SliceReply :=
  if r.errorCode ≠ 0 then .error (.ofErrno r.errorCode r.errorMessage)
  else if r.md5.isEmpty then .error (lacking s!"分片 #{partseq} 响应缺少 md5")
  else .ok r

def accepted (partseq : Nat) (request : Option Http.Request) (o : Http.Outcome) :
    Except CallFault SliceReply :=
  (receive request SliceReply.ofJson? o).bind (checkSlice partseq)

/-- What is said when the parts are joined. -/
def createNotice (r : CreateRequest) : LogLine :=
  .info s!"创建文件: path={r.path}, size={r.size}, 分片数={r.chunkCount}"

def checkCreate (r : CreateReply) : Except CallFault CreateReply :=
  if r.errno ≠ 0 then .error (.ofErrno r.errno "create 失败") else .ok r

def joined (request : Option Http.Request) (o : Http.Outcome) : Except CallFault CreateReply :=
  (receive request CreateReply.ofJson? o).bind checkCreate

end Client

end ResumableUpload
