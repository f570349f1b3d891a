import ResumableUpload.Log
import ResumableUpload.Session.Target

/-!
# Sessions and their states

A session is one upload, from its start to a result. Its handle says what it uploads, how far it has
come, and whether it was cancelled. A session that has come to an end stays there.
-/

namespace ResumableUpload.Session

/-- How far a session has come. -/
inductive State
  | created
  -- the file is digested and the upload announced
  | preparing
  -- parts are sent
  | uploading
  -- the parts are joined
  | finalizing
  | committed
  | failed
  | cancelled
  deriving DecidableEq

namespace State

def all : List State :=
  [created, preparing, uploading, finalizing, committed, failed, cancelled]

theorem mem_all (s : State) : s ∈ all := by cases s <;> decide

def key : State → String
  | created => "created"
  | preparing => "preparing"
  | uploading => "uploading"
  | finalizing => "finalizing"
  | committed => "committed"
  | failed => "failed"
  | cancelled => "cancelled"

def label : State → String
  | created => "Created"
  | preparing => "Preparing"
  | uploading => "Uploading"
  | finalizing => "Finalizing"
  | committed => "Committed"
  | failed => "Failed"
  | cancelled => "Cancelled"

def ofKey? (s : String) : Option State := all.find? fun state => state.key == s

def isTerminal : State → Bool
  | committed | failed | cancelled => true
  | _ => false

end State

/-- A session. -/
structure Handle where
  id : String
  target : Target
  uploader : Nat
  state : State := .created
  cancelled : Bool := false
  deriving DecidableEq

namespace Handle

/-- What is said when a session is made. -/
def startNotice (h : Handle) : LogLine :=
  let t := h.target
  .info (s!"创建上传会话: id={h.id}, {Text.quoted t.localPath} -> {t.remotePath}, "
    ++ s!"大小={t.totalSize}, token={maskToken t.accessToken}")

def cancel (h : Handle) : Handle × List LogLine :=
  if h.cancelled then (h, []) else ({ h with cancelled := true }, [.info s!"取消上传会话: {h.id}"])

/-- The session in its next state, unless it has come to an end. -/
def advance (h : Handle) (next : State) : Handle × List LogLine :=
  if h.state.isTerminal then (h, [])
  else
    ({ h with state := next },
      [.debug s!"会话 {h.id} 状态: {h.state.label} -> {next.label}"])

def runAgainFault (h : Handle) : String := s!"会话 {h.id} 当前状态为 {h.state.label}，不能再次运行"

/-- The text of a session for debugging, given those of its token and of the lock on its state. -/
def shown (token : Bool → String) (lock : String → String) (h : Handle) : String :=
  "SessionHandle \x7b id: " ++ Text.quoted h.id ++ ", target: " ++ h.target.shown
    ++ ", cancel: " ++ token h.cancelled ++ ", state: " ++ lock h.state.label ++ " \x7d"

end Handle

/-- What a finished upload gives. -/
structure Commit where
  fsId : Nat
  path : String
  size : Nat
  md5 : String
  rapid : Bool
  deriving DecidableEq

namespace Commit

def fieldNames : List String := ["fs_id", "path", "size", "md5", "rapid"]

def toJson (c : Commit) : Json :=
  .record [("fs_id", .nat c.fsId), ("path", .text c.path), ("size", .nat c.size),
    ("md5", .text c.md5), ("rapid", .bool c.rapid)]

def ofJson? (v : Json) : Option Commit := do
  let r ← Json.fields? fieldNames v
  pure {
    fsId := ← r.required "fs_id" (Json.natOfBits? 64)
    path := ← r.required "path" Json.text?
    size := ← r.required "size" (Json.natOfBits? 64)
    md5 := ← r.required "md5" Json.text?
    rapid := ← r.required "rapid" Json.bool? }

end Commit

end ResumableUpload.Session
