import ResumableUpload.Digest.File
import ResumableUpload.Fault.Upload
import ResumableUpload.Retry.Loop
import ResumableUpload.Session.World

/-!
# The upload of one part

A worker reads a part from the file and sends it, with retries. Each attempt finds an upload host
anew and reports to the resolver how the host did: a reply makes up for failures, a fault of the
connection counts as one. An attempt without a host fails for good.
-/

namespace ResumableUpload.Session

/-- What all parts of an upload have in common. -/
structure Job where
  target : Target
  policy : Retry.Policy
  resolver : Nat
  plan : Plan
  digests : Digest.FileDigests
  uploadId : String

/-- What an attempt to send a part does now. -/
inductive Attempt
  -- it finds a host
  | resolving (c : Caller)
  -- the part is on its way to a host
  | sending (e : Endpoint)

/-- How far the upload of a part has come. -/
inductive Transfer
  | reading
  -- an attempt comes next
  | ready (payload : ByteArray) (n : Nat)
  -- attempt `n` is under way
  | attempting (payload : ByteArray) (n : Nat) (a : Attempt)
  -- attempt `n` failed, and the next one waits
  | pausing (payload : ByteArray) (n : Nat) (wait : Duration)

/-- What became of the upload of a part in one step. -/
inductive TransferResult
  | more (t : Transfer)
  | done (result : Except UploadFault String)
  -- the task stopped abnormally
  | crash (text : String)

/-- A step of the upload of a part. -/
structure TransferTurn where
  world : World
  result : TransferResult
  notes : List Note := []

namespace Transfer

/-- The upload waits for something outside, so cancelling can end it here. -/
def isWaiting : Transfer → Bool
  | reading => true
  | ready .. => false
  | attempting _ _ (.resolving (.waiting _)) => true
  | attempting _ _ (.resolving _) => false
  | attempting _ _ (.sending _) => true
  | pausing .. => true

def operation (job : Job) (c : Chunk) : Retry.Operation where
  name := s!"分片 #{c.index}"
  policy := job.policy

def request (job : Job) (c : Chunk) (payload : ByteArray) : SliceRequest where
  path := job.target.remotePath
  uploadId := job.uploadId
  partseq := c.index
  offset := c.offset
  payload := payload

def digestNotice (job : Job) (c : Chunk) (md5 : String) : List LogLine :=
  match job.digests.blockList[c.index]? with
  | some expected =>
    if Text.sameIgnoringCase md5 expected then []
    else [.warn s!"分片 #{c.index} 服务端 MD5 ({md5}) 与本地 ({expected}) 不一致"]
  | none => []

/-- Where the retried call stands, with what it holds. -/
def ofLoop (job : Job) (c : Chunk) (payload : ByteArray) :
    Retry.Loop String → TransferResult × List Note
  | .active (.ready n) => (.more (ready payload n), [])
  | .active (.attempting n) =>
    (.more (attempting payload n (.resolving .entering)), [.limit job.policy.attemptTimeout])
  | .active (.pausing n wait) => (.more (pausing payload n wait), [.pause wait])
  | .ended (.ok md5) => (.done (.ok md5), Note.lines (digestNotice job c md5))
  | .ended (.error f) => (.done (.error (.ofChunk c.index f)), [])

def retry (job : Job) (c : Chunk) (payload : ByteArray) (cancelled : Bool) (w : World)
    (stage : Retry.Stage) (s : Retry.Signal String) : TransferTurn :=
  let (loop, lines) := (Retry.Loop.active stage).step (operation job c) 0 cancelled s
  let (result, notes) := ofLoop job c payload loop
  ⟨w, result, Note.lines lines ++ notes⟩

/-- An attempt ends. Cancelling at the same moment is not looked at any more. -/
def conclude (job : Job) (c : Chunk) (payload : ByteArray) (n : Nat) (w : World)
    (o : Retry.Outcome String) : TransferTurn :=
  retry job c payload false w (.attempting n) (.outcome o)

/-- An attempt has found a host, has not, or still waits for one. -/
def resolved (job : Job) (c : Chunk) (payload : ByteArray) (n : Nat) (r : World.Resolved) :
    TransferTurn :=
  match r.resolution with
  | .pending caller => ⟨r.world, .more (attempting payload n (.resolving caller)), r.notes⟩
  | .poisoned => ⟨r.world, .crash poisonedReport, r.notes⟩
  | .done (.ok e) =>
    let call := Call.slice e.baseUrl job.target.accessToken (request job c payload)
    ⟨r.world, .more (attempting payload n (.sending e)), r.notes ++ [.call call]⟩
  | .done (.error detail) =>
    let turn := conclude job c payload n r.world (.fault (.plain .endpointUnavailable detail))
    { turn with notes := r.notes ++ turn.notes }

def replied (job : Job) (c : Chunk) (payload : ByteArray) (n : Nat) (e : Endpoint) (w : World) :
    Reply → TransferTurn
  | .slice r =>
    let (w, _) := w.withResolver job.resolver fun resolver => (resolver.reportSuccess, [])
    conclude job c payload n w (.value r.md5)
  | .fault f =>
    let (w, lines) :=
      if f.kind.isConnectionClass then
        w.withResolver job.resolver fun resolver => resolver.reportFailure e
      else (w, [])
    let turn := conclude job c payload n w (.fault f)
    { turn with notes := Note.lines lines ++ turn.notes }
  | .crash text => ⟨w, .crash text, []⟩
  | _ => ⟨w, .more (attempting payload n (.sending e)), []⟩

def step (job : Job) (c : Chunk) (cancelled : Bool) (w : World) : Transfer → Signal → TransferTurn
  | reading, .go =>
    match Digest.readChunk w.files job.target.localPath c.offset c.size with
    | .ok payload => ⟨w, .more (ready payload 0), []⟩
    | .error fault => ⟨w, .done (.error (.io fault)), []⟩
  | ready payload n, .go => retry job c payload cancelled w (.ready n) .look
  | attempting payload n (.resolving caller), .go =>
    resolved job c payload n (w.ask job.resolver job.target.accessToken caller)
  | attempting payload n (.resolving (.waiting l)), .lookup reply _ =>
    let (w, lines) := w.endLookup job.resolver l reply
    match reply with
    | .outcome _ =>
      let turn := resolved job c payload n (w.ask job.resolver job.target.accessToken (.waiting l))
      { turn with notes := Note.lines lines ++ turn.notes }
    | .crash text => ⟨w, .crash text, Note.lines lines⟩
  | attempting payload n (.sending e), .reply r _ => replied job c payload n e w r
  | attempting payload n _, .limit => conclude job c payload n w .late
  | pausing payload n wait, .wake => retry job c payload cancelled w (.pausing n wait) .wake
  | t, _ => ⟨w, .more t, []⟩

end Transfer

end ResumableUpload.Session
