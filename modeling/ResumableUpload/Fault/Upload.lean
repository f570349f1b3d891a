import ResumableUpload.Fault.Io
import ResumableUpload.Retry.Failure

/-!
# Why an upload failed

Transient faults are dealt with where they occur. What reaches the caller of an upload is one of
the failures below, each with the fault behind it.
-/

namespace ResumableUpload

/-- Why an upload, or the upload of one part, failed. -/
inductive UploadFault
  | endpointUnavailable (detail : String)
  | initFailed (attempts : Nat) (source : CallFault)
  | chunkFailed (index attempts : Nat) (source : CallFault)
  | finalizeFailed (source : CallFault)
  | authFailed (source : CallFault)
  | cancelled
  | invalidState (detail : String)
  | io (source : IoFault)
  | internal (detail : String)
  deriving DecidableEq

namespace UploadFault

/-- The name of the way in which the upload failed. -/
def label : UploadFault → String
  | endpointUnavailable _ => "EndpointUnavailable"
  | initFailed .. => "SessionInitFailed"
  | chunkFailed .. => "ChunkUploadFailed"
  | finalizeFailed _ => "FinalizeFailed"
  | authFailed _ => "AuthFailed"
  | cancelled => "Cancelled"
  | invalidState _ => "InvalidState"
  | io _ => "Io"
  | internal _ => "Internal"

def text : UploadFault → String
  | endpointUnavailable detail => s!"上传地址不可用: {detail}"
  | initFailed n source => s!"预上传失败（尝试 {n} 次）: {source.text}"
  | chunkFailed index n source => s!"分片 #{index} 上传失败（尝试 {n} 次）: {source.text}"
  | finalizeFailed source => s!"合并分片失败: {source.text}"
  | authFailed source => s!"认证失败: {source.text}"
  | cancelled => "上传已取消"
  | invalidState detail => s!"会话状态错误: {detail}"
  | io source => s!"本地文件读取失败: {source.text}"
  | internal detail => s!"内部错误: {detail}"

/-- The failure of a retried call: a refused token and a missing address are told apart, a
cancelled call is a cancelled upload, and any other fault becomes what `other` makes of it. -/
def ofRetry (other : Nat → CallFault → UploadFault) (f : Retry.Failure) : UploadFault :=
  match f.lastFault? with
  | none => cancelled
  | some fault =>
    match fault.kind with
    | .unauthorized => authFailed fault
    | .endpointUnavailable => endpointUnavailable fault.message
    | _ => other f.attempts fault

def ofInit (f : Retry.Failure) : UploadFault := ofRetry initFailed f

def ofChunk (index : Nat) (f : Retry.Failure) : UploadFault := ofRetry (chunkFailed index) f

def ofFinalize (fault : CallFault) : UploadFault :=
  match fault.kind with
  | .unauthorized => authFailed fault
  | .cancelled => cancelled
  | _ => finalizeFailed fault

/-- The caller may start the whole upload again. -/
def isRestartable : UploadFault → Bool
  | chunkFailed _ _ source => source.kind != .quotaExceeded
  | initFailed _ source => source.isRetriable
  | endpointUnavailable _ | cancelled => true
  | _ => false

end UploadFault

end ResumableUpload
