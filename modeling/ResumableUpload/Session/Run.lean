import ResumableUpload.Pool
import ResumableUpload.Session.Transfer

/-!
# The run of a session

A run cuts the file into parts, digests it, and goes on with a resume record if there is one that
fits; otherwise it announces the upload. It finds an upload host, sends the parts that are wanted
with a pool of workers, and joins them. A run that is cancelled while it sends parts saves a resume
record.

A run is a task of its own, and so is each of its workers. A step of a task (`Run.main`,
`Run.worker`) is what happens between two moments at which another task may come in between. While a
task waits, cancelling goes before whatever it waits for; the request that joins the parts is the
one thing that cannot be cancelled.
-/

namespace ResumableUpload.Session

/-- How far a run has come. -/
inductive Stage
  -- the session is asked for its state next
  | entering
  -- the file is cut into parts next
  | starting
  -- the file is digested
  | hashing (plan : Plan)
  -- a resume record is looked for next
  | claiming (plan : Plan) (digests : Digest.FileDigests)
  -- the upload is announced, with retries
  | announcing (plan : Plan) (digests : Digest.FileDigests) (retry : Retry.Stage)
  -- the upload has an identifier; a host is looked for next
  | opening (job : Job)
  -- a host is looked for
  | locating (job : Job) (c : Caller)
  -- parts are sent
  | sending (job : Job) (pool : Pool Transfer)
  -- the workers are done; what they report is looked at next
  | closing (job : Job) (report : PoolReport)
  -- all parts are on the server; the token is looked at for the last time next
  | checking (job : Job)
  -- the parts are joined
  | finalizing (job : Job)
  -- the result is known; the session is told next
  | settling (result : Except UploadFault Commit)
  | ended (result : Except UploadFault Commit)
  -- the task stopped abnormally
  | crashed (report : String)

/-- A run of a session. -/
structure Run where
  handle : Nat
  stage : Stage := .entering

/-- A step of a task. -/
structure Turn where
  world : World
  stage : Stage
  notes : List Note := []

/-- The first text unless it is empty. -/
def nonEmptyOr (s default : String) : String := if s.isEmpty then default else s

namespace Run

/-- What a run goes by. -/
structure Setup where
  handle : Nat
  target : Target
  settings : Settings
  resolver : Nat

namespace Setup

def settle (w : World) (result : Except UploadFault Commit) (notes : List Note := []) : Turn :=
  ⟨w, .settling result, notes⟩

def cancelled (w : World) : Turn := settle w (.error .cancelled)

/-- The session is asked whether it may be run. -/
def enter (s : Setup) (w : World) : Turn :=
  match w.handles[s.handle]? with
  | none => ⟨w, .entering, []⟩
  | some h =>
    if h.state = .created then
      ⟨{ w with handles := w.handles.set s.handle { h with state := .preparing } }, .starting, []⟩
    else ⟨w, .ended (.error (.invalidState h.runAgainFault)), []⟩

/-- The file is cut into parts. -/
def start (s : Setup) (w : World) : Turn :=
  if w.isCancelled s.handle then cancelled w
  else
    let sizing := s.settings.sizing
    ⟨w, .hashing (sizing.plan s.target.totalSize),
      Note.lines (sizing.planNotices s.target.totalSize)⟩

def hash (s : Setup) (w : World) (plan : Plan) : Turn :=
  match Digest.ofFile w.files s.target.localPath plan with
  | .error fault => settle w (.error (.io fault))
  | .ok d =>
    ⟨w, .claiming plan d,
      [.line (.debug (s!"校验值计算完成: content-md5={d.contentMd5}, "
        ++ s!"分片数={d.blockList.length}"))]⟩

def key (s : Setup) (d : Digest.FileDigests) : String :=
  Resume.key s.target.remotePath d.contentMd5

/-- A resume record fits the file and the plan. -/
def fits (s : Setup) (plan : Plan) (d : Digest.FileDigests) (r : Resume.Record) : Bool :=
  r.partSize == plan.partSize && r.totalSize == s.target.totalSize && r.blockList == d.blockList

/-- What the parts of the upload have in common. -/
def job (s : Setup) (plan : Plan) (d : Digest.FileDigests) (uploadId : String) : Job where
  target := s.target
  policy := s.settings.retryPolicy
  resolver := s.resolver
  plan := plan
  digests := d
  uploadId := uploadId

/-- A resume record is taken out of the store, and used if it fits. -/
def claim (s : Setup) (w : World) (plan : Plan) (d : Digest.FileDigests) : Turn :=
  let key := s.key d
  let taken := w.store.find? key
  let w := { w with store := w.store.erase key }
  match taken.filter (s.fits plan d) with
  | some r =>
    ⟨w, .opening (s.job (plan.retain r.pending) d r.uploadId),
      [.line (.info s!"断点续传: uploadid={r.uploadId}, 剩余分片 {r.pending.length}/{plan.count}")]⟩
  | none => ⟨w, .announcing plan d (.ready 0), []⟩

def announcement (s : Setup) : Retry.Operation where
  name := "预上传"
  policy := s.settings.retryPolicy

def precreate (s : Setup) (d : Digest.FileDigests) : Call :=
  .precreate s.target.accessToken {
    path := s.target.remotePath
    size := s.target.totalSize
    blockList := d.blockList
    contentMd5 := d.contentMd5
    sliceMd5 := d.sliceMd5 }

/-- The upload is announced: the server has the content already, or the run goes on. -/
def announced (s : Setup) (w : World) (plan : Plan) (d : Digest.FileDigests)
    (r : PrecreateReply) : Turn :=
  if r.isRapid then
    let info := r.info.getD {}
    settle w
      (.ok ⟨info.fsId, nonEmptyOr info.path s.target.remotePath, s.target.totalSize,
        nonEmptyOr info.md5 d.contentMd5, true⟩)
      [.line (.info s!"秒传成功: {s.target.remotePath}")]
  else
    let plan := if r.blockList.isEmpty then plan else plan.retain r.blockList
    ⟨w, .opening (s.job plan d r.uploadId), []⟩

/-- Where the announcement stands. -/
def ofAnnouncement (s : Setup) (w : World) (plan : Plan) (d : Digest.FileDigests) :
    Retry.Loop PrecreateReply → Turn
  | .active (.attempting n) =>
    ⟨w, .announcing plan d (.attempting n),
      [.limit s.settings.uploadTimeout, .call (s.precreate d)]⟩
  | .active (.pausing n wait) => ⟨w, .announcing plan d (.pausing n wait), [.pause wait]⟩
  | .active stage => ⟨w, .announcing plan d stage, []⟩
  | .ended (.ok r) => s.announced w plan d r
  | .ended (.error f) => settle w (.error (.ofInit f))

/-- The announcement takes a step; a signal that does not fit brings nothing about. -/
def announce (s : Setup) (w : World) (plan : Plan) (d : Digest.FileDigests) (stage : Retry.Stage)
    (cancelled : Bool) (signal : Retry.Signal PrecreateReply) : Turn :=
  let (loop, lines) := (Retry.Loop.active stage).step s.announcement 0 cancelled signal
  if loop.isAt stage then ⟨w, .announcing plan d stage, []⟩
  else
    let turn := s.ofAnnouncement w plan d loop
    { turn with notes := Note.lines lines ++ turn.notes }

def beginLocating (s : Setup) (w : World) (job : Job) : Turn :=
  let (w, lines) := w.advance s.handle .uploading
  if w.isCancelled s.handle then settle w (.error .cancelled) (Note.lines lines)
  else ⟨w, .locating job .entering, Note.lines lines⟩

/-- The search for a host has ended, or has not. -/
def located (s : Setup) (job : Job) (r : World.Resolved) : Turn :=
  match r.resolution with
  | .pending c => ⟨r.world, .locating job c, r.notes⟩
  | .poisoned => ⟨r.world, .crashed (crashReport poisonedReport), r.notes⟩
  | .done (.error detail) => settle r.world (.error (.endpointUnavailable detail)) r.notes
  | .done (.ok e) =>
    let pending := job.plan.pending
    let threads := s.settings.effectiveThreads
    let line := LogLine.info (s!"开始上传分片: 上传地址={e.baseUrl}, "
      ++ s!"待上传 {pending.length}/{job.plan.count}, 分片大小={job.plan.partSize}")
    ⟨r.world, .sending job (.start threads pending),
      r.notes ++ Note.lines (line :: Pool.startNotice threads pending)⟩

/-- A worker that stopped abnormally is noticed, or all workers are done. -/
def attend (w : World) (job : Job) (pool : Pool Transfer) : Turn :=
  if !pool.fallen.isEmpty then
    let (pool, lines) := pool.collect
    ⟨w, .sending job pool, Note.lines lines⟩
  else if pool.isDone then ⟨w, .closing job pool.result, Note.lines pool.resultNotice⟩
  else ⟨w, .sending job pool, []⟩

/-- The plan with the parts marked that the workers sent. -/
def marked (plan : Plan) (report : PoolReport) : Plan :=
  report.completed.foldl (fun plan part => plan.mark part.1) plan

/-- The resume record of an upload. -/
def record (s : Setup) (w : World) (job : Job) : Resume.Record where
  uploadId := job.uploadId
  partSize := job.plan.partSize
  totalSize := s.target.totalSize
  pending := job.plan.pending.map Chunk.index
  blockList := job.digests.blockList
  savedAt := w.clock

def save (s : Setup) (w : World) (job : Job) : Turn :=
  let r := s.record w job
  let key := s.key job.digests
  settle { w with store := w.store.insert key r } (.error .cancelled)
    (Note.lines [.info s!"保存断点续传记录: {s.target.remotePath} (剩余分片 {r.pending.length})",
      Resume.Store.insertNotice key r])

/-- What the workers report is looked at. -/
def close (s : Setup) (w : World) (job : Job) (report : PoolReport) : Turn :=
  let job := { job with plan := marked job.plan report }
  if w.isCancelled s.handle || !report.interrupted.isEmpty then s.save w job
  else
    match report.failures, report.workerErrors with
    | (index, f) :: _, _ =>
      settle w (.error f)
        [.line (.warn s!"分片 #{index} 失败，放弃合并 (未领取分片 {report.unassigned})")]
    | [], e :: _ => settle w (.error (.internal s!"上传线程异常退出: {e}"))
    | [], [] =>
      if job.plan.isComplete then ⟨w, .checking job, []⟩
      else
        settle w (.error (.internal
          s!"分片未全部完成: {job.plan.uploaded.length}/{job.plan.count}"))

def createRequest (s : Setup) (job : Job) : CreateRequest where
  path := s.target.remotePath
  size := s.target.totalSize
  uploadId := job.uploadId
  chunkCount := job.plan.count
  blockList := job.digests.blockList

/-- The parts are joined unless the session was cancelled. -/
def finalize (s : Setup) (w : World) (job : Job) : Turn :=
  if w.isCancelled s.handle then cancelled w
  else
    let (w, lines) := w.advance s.handle .finalizing
    let request := s.createRequest job
    let line := LogLine.info s!"合并分片: {request.path} (分片数={request.chunkCount})"
    ⟨w, .finalizing job,
      Note.lines (lines ++ [line])
        ++ [.limit s.settings.uploadTimeout, .call (.create s.target.accessToken request)]⟩

/-- The parts are joined: the resume record is not needed any more. -/
def commit (s : Setup) (w : World) (job : Job) (r : CreateReply) : Turn :=
  settle { w with store := w.store.erase (s.key job.digests) }
    (.ok ⟨r.fsId, nonEmptyOr r.path s.target.remotePath, s.target.totalSize, r.md5, false⟩)

def lateFault (s : Setup) : CallFault :=
  .plain .timeout s!"合并请求超时 ({s.settings.uploadTimeout.text})"

/-- What is said about the credentials when the token was refused. -/
def credentialsNotice (s : Setup) : UploadFault → List LogLine
  | .authFailed _ =>
    match s.target.credentials with
    | some c => [.warn s!"access token 已失效，请使用应用 {c.clientId} 重新授权"]
    | none => []
  | _ => []

/-- The session is told how it ended. -/
def conclude (s : Setup) (w : World) (result : Except UploadFault Commit) : Turn :=
  match result with
  | .ok c =>
    let (w, lines) := w.advance s.handle .committed
    ⟨w, .ended result,
      Note.lines (lines ++ [.info s!"上传完成: {c.path} (fs_id={c.fsId}, 秒传={c.rapid})"])⟩
  | .error .cancelled =>
    let (w, lines) := w.advance s.handle .cancelled
    ⟨w, .ended result, Note.lines (lines ++ [.info s!"上传已取消: {s.target.remotePath}"])⟩
  | .error f =>
    let (w, lines) := w.advance s.handle .failed
    ⟨w, .ended result,
      Note.lines (lines ++ [.warn s!"上传失败: {s.target.remotePath}: {f.text}"]
        ++ s.credentialsNotice f)⟩

/-! ### Steps -/

/-- A step of the task of a run. `cancelled` says whether the session was cancelled before the
step; if it was, only the request that joins the parts gets another signal than `go`. -/
def main (s : Setup) (w : World) (cancelled : Bool) : Stage → Signal → Turn
  | .entering, .go => s.enter w
  | .starting, .go => s.start w
  | .hashing plan, .go => if cancelled then Setup.cancelled w else s.hash w plan
  | .claiming plan d, .go => s.claim w plan d
  | .announcing plan d stage, .go => s.announce w plan d stage cancelled .look
  | .announcing plan d stage, .wake => s.announce w plan d stage cancelled .wake
  | .announcing plan d stage, .limit => s.announce w plan d stage cancelled (.outcome .late)
  | .announcing plan d stage, .reply (.precreate r) _ =>
    s.announce w plan d stage cancelled (.outcome (.value r))
  | .announcing plan d stage, .reply (.fault f) _ =>
    s.announce w plan d stage cancelled (.outcome (.fault f))
  | .announcing _ _ (.attempting _), .reply (.crash text) _ =>
    ⟨w, .crashed (crashReport text), []⟩
  | .opening job, .go => s.beginLocating w job
  | .locating job (.waiting l), .go =>
    if cancelled then Setup.cancelled w
    else s.located job (w.ask s.resolver s.target.accessToken (.waiting l))
  | .locating job c, .go => s.located job (w.ask s.resolver s.target.accessToken c)
  | .locating job (.waiting l), .lookup reply _ =>
    let (w, lines) := w.endLookup s.resolver l reply
    match reply with
    | .outcome _ =>
      let turn := s.located job (w.ask s.resolver s.target.accessToken (.waiting l))
      { turn with notes := Note.lines lines ++ turn.notes }
    | .crash text => ⟨w, .crashed (crashReport text), Note.lines lines⟩
  | .sending job pool, .go => attend w job pool
  | .closing job report, .go => s.close w job report
  | .checking job, .go => s.finalize w job
  | .finalizing job, .reply (.create r) _ => s.commit w job r
  | .finalizing _, .reply (.fault f) _ => settle w (.error (.ofFinalize f))
  | .finalizing _, .reply (.crash text) _ => ⟨w, .crashed (crashReport text), []⟩
  | .finalizing _, .limit => settle w (.error (.finalizeFailed s.lateFault))
  | .settling result, .go => s.conclude w result
  | stage, _ => ⟨w, stage, []⟩

/-- A step of worker `i` of a run. -/
def worker (s : Setup) (w : World) (cancelled : Bool) (i : Nat) : Stage → Signal → Turn
  | .sending job pool, signal =>
    match pool.workers[i]? with
    | some (.uploading c t) =>
      if cancelled && t.isWaiting then
        let (pool, lines) := pool.interrupt i c
        ⟨w, .sending job pool, Note.lines lines⟩
      else
        let turn := t.step job c (w.isCancelled s.handle) w signal
        match turn.result with
        | .more t => ⟨turn.world, .sending job (pool.setWorker i (.uploading c t)), turn.notes⟩
        | .done result =>
          let (pool, lines) := pool.finish i c result
          ⟨turn.world, .sending job pool, turn.notes ++ Note.lines lines⟩
        | .crash text => ⟨turn.world, .sending job (pool.crash i text), turn.notes⟩
    | _ =>
      match signal with
      | .go =>
        let (pool, lines) := pool.step (fun _ => .reading) (w.isCancelled s.handle) i
        ⟨w, .sending job pool, Note.lines lines⟩
      | _ => ⟨w, .sending job pool, []⟩
  | stage, _ => ⟨w, stage, []⟩

/-- The call of a task that waits for its answer. -/
def underWay (s : Setup) : Option Nat → Stage → Option Call
  | none, .announcing _ d (.attempting _) => some (s.precreate d)
  | none, .finalizing job => some (.create s.target.accessToken (s.createRequest job))
  | some i, .sending job pool =>
    match pool.workers[i]? with
    | some (.uploading c (.attempting payload _ (.sending e))) =>
      some (.slice e.baseUrl job.target.accessToken (Transfer.request job c payload))
    | _ => none
  | _, _ => none

end Setup

end Run

end ResumableUpload.Session
