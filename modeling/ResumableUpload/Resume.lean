import ResumableUpload.Files
import ResumableUpload.Json.Reader
import ResumableUpload.Json.Record
import ResumableUpload.Json.Writer
import ResumableUpload.Log

/-!
# Resume records

When an upload is cancelled, what it takes to go on with it later is kept under a key made of the
digest of the file and its path on the server. A record is taken out of the store to be used, so two
uploads never go on with the same one.
-/

namespace ResumableUpload.Resume

/-- What it takes to go on with an upload. -/
structure Record where
  uploadId : String
  partSize : Nat
  totalSize : Nat
  pending : List Nat
  /-- The digest of each part. -/
  blockList : List String
  savedAt : Int
  deriving DecidableEq

namespace Record

def fieldNames : List String :=
  ["upload_id", "part_size", "total_size", "pending", "block_list", "saved_at"]

def toJson (r : Record) : Json :=
  .record [("upload_id", .text r.uploadId), ("part_size", .nat r.partSize),
    ("total_size", .nat r.totalSize), ("pending", .nats r.pending),
    ("block_list", .texts r.blockList), ("saved_at", .int r.savedAt)]

def ofJson? (v : Json) : Option Record := do
  let r ← Json.fields? fieldNames v
  pure {
    uploadId := ← r.required "upload_id" Json.text?
    partSize := ← r.required "part_size" (Json.natOfBits? 64)
    totalSize := ← r.required "total_size" (Json.natOfBits? 64)
    pending := ← r.required "pending" (Json.list? (Json.natOfBits? 64))
    blockList := ← r.required "block_list" (Json.list? Json.text?)
    savedAt := ← r.required "saved_at" (Json.intOfBits? 64) }

end Record

/-- Resume records by their keys. -/
structure Store where
  entries : List (String × Record) := []
  deriving DecidableEq

def key (remotePath contentMd5 : String) : String := contentMd5 ++ ":" ++ remotePath

namespace Store

def find? (s : Store) (key : String) : Option Record :=
  (s.entries.find? (·.1 == key)).map (·.2)

def erase (s : Store) (key : String) : Store := ⟨s.entries.filter (·.1 != key)⟩

def insert (s : Store) (key : String) (r : Record) : Store := ⟨(s.erase key).entries ++ [(key, r)]⟩

def count (s : Store) : Nat := s.entries.length

/-- What is said when a record is saved. -/
def insertNotice (key : String) (r : Record) : LogLine :=
  .debug s!"保存上传进度: key={key}, 剩余分片={r.pending.length}"

@[simp] theorem find?_erase_self (s : Store) (key : String) : (s.erase key).find? key = none := by
  simp [erase, find?]

/-! ### In a file -/

def toJson (s : Store) : Json := .record (s.entries.map fun (key, r) => (key, r.toJson))

def ofJson? (v : Json) : Option Store := (Json.map? Record.ofJson? v).map Store.mk

/-- Why a store could not be loaded or saved. -/
inductive Fault
  | unreadable
  | malformed
  | noFolder
  | unwritable
  deriving DecidableEq

def Fault.text : Fault → String
  | unreadable => "Failed to read upload progress file"
  | malformed => "Failed to parse upload progress file"
  | noFolder => "Failed to create progress directory"
  | unwritable => "Failed to write upload progress file"

/-- What is said when a store was loaded. -/
def loadNotice (s : Store) (path : String) : LogLine :=
  .info s!"加载断点续传记录 {s.count} 条: {Text.quoted path}"

/-- The store in a file, and what is said about it. Without the file the store is empty. -/
def load (files : Files) (path : String) : Except Fault (Store × List LogLine) :=
  if files.contains path then
    match files.readText path with
    | .error _ => .error .unreadable
    | .ok text =>
      match (Json.read? text).bind ofJson? with
      | none => .error .malformed
      | some store =>
        .ok (store, [store.loadNotice path])
  else .ok ({}, [])

def save (s : Store) (files : Files) (path : String) : Files × Option Fault :=
  match files.makeParents path with
  | .error unmade => (unmade.files, some .noFolder)
  | .ok files =>
    match files.write path s.toJson.pretty.toUTF8 with
    | .error _ => (files, some .unwritable)
    | .ok files => (files, none)

end Store

end ResumableUpload.Resume
