import ResumableUpload.Fault.Upload
import ResumableUpload.Log
import ResumableUpload.Plan.Sizing
import ResumableUpload.Text.Quoted

/-!
# The pool of workers

A fixed number of workers take parts from a queue, one after the other. After the first part that
fails no worker takes another; what is under way is finished. Cancelling interrupts the parts under
way as well. A worker that stops abnormally stops the others in the same way.

A step of a worker is what it does between two moments at which another worker may come in between:
a look at the stop sign, a look at the token, taking a part, the start of its upload, and after a
failure first raising the stop sign and then the report. What the upload of a part is, is left open
(`σ`).
-/

namespace ResumableUpload

/-- What came of the parts given to a pool. -/
structure PoolReport where
  -- parts that were uploaded, with the digests from the server, in the order of completion
  completed : List (Nat × String) := []
  -- parts that failed, in the order of failure
  failures : List (Nat × UploadFault) := []
  /-- Parts under way when the upload was cancelled. -/
  interrupted : List Nat := []
  -- how many parts no worker took
  unassigned : Nat := 0
  workerErrors : List String := []
  deriving DecidableEq

def PoolReport.isSuccess (r : PoolReport) : Bool :=
  r.failures.isEmpty && r.interrupted.isEmpty && r.workerErrors.isEmpty && r.unassigned == 0

/-- How far a worker has come. -/
inductive Worker (σ : Type)
  -- it looks at the stop sign next
  | ready
  -- the stop sign was down; it looks at the token next
  | unstopped
  -- the token was valid; it takes a part next
  | cleared
  -- it has taken a part
  | holding (c : Chunk)
  -- it uploads a part
  | uploading (c : Chunk) (work : σ)
  -- its part failed; it raises the stop sign next
  | failing (c : Chunk) (f : UploadFault)
  -- it reports the failure next
  | reporting (c : Chunk) (f : UploadFault)
  -- it stopped abnormally, which nobody has noticed yet
  | crashed
  -- it is done
  | left

/-- A pool at work. -/
structure Pool (σ : Type) where
  queue : List Chunk
  stopped : Bool := false
  workers : List (Worker σ)
  report : PoolReport := {}
  -- workers that stopped abnormally and have not been noticed, with their reports, in order
  fallen : List (Nat × String) := []

def crashReport (text : String) : String := "task # panicked with message " ++ Text.quoted text

namespace Pool

def workerCount (threads : Nat) (chunks : List Chunk) : Nat :=
  min (clampThreads threads) chunks.length

def start (threads : Nat) (chunks : List Chunk) : Pool σ where
  queue := chunks
  workers := List.replicate (workerCount threads chunks) .ready

/-- What is said when a pool starts. -/
def startNotice (threads : Nat) (chunks : List Chunk) : List LogLine :=
  if chunks.isEmpty then []
  else [.info s!"启动 {workerCount threads chunks} 个上传线程，共 {chunks.length} 个分片"]

def setWorker (p : Pool σ) (i : Nat) (w : Worker σ) : Pool σ :=
  { p with workers := p.workers.set i w }

def said (i : Nat) (text : String) : String := s!"[上传线程{i}] {text}"

def interrupt (p : Pool σ) (i : Nat) (c : Chunk) : Pool σ × List LogLine :=
  let report := { p.report with interrupted := p.report.interrupted ++ [c.index] }
  ({ p with report := report }.setWorker i .ready,
    [.info (said i s!"分片 #{c.index} 因任务取消而中断")])

def finish (p : Pool σ) (i : Nat) (c : Chunk) : Except UploadFault String → Pool σ × List LogLine
  | .ok md5 =>
    let report := { p.report with completed := p.report.completed ++ [(c.index, md5)] }
    ({ p with report := report }.setWorker i .ready,
      [.debug (said i s!"分片 #{c.index} 上传完成")])
  | .error .cancelled => p.interrupt i c
  | .error f =>
    (p.setWorker i (.failing c f), [.warn (said i s!"分片 #{c.index} 上传失败: {f.text}")])

def crash (p : Pool σ) (i : Nat) (text : String) : Pool σ :=
  { p with fallen := p.fallen ++ [(i, crashReport text)] }.setWorker i .crashed

/-- A step of a worker that does not upload. -/
def step (begins : Chunk → σ) (cancelled : Bool) (p : Pool σ) (i : Nat) : Pool σ × List LogLine :=
  let leave := (p.setWorker i .left, [LogLine.debug (said i "收到停止信号，不再领取分片")])
  match p.workers[i]? with
  | some .ready => if p.stopped then leave else (p.setWorker i .unstopped, [])
  | some .unstopped => if cancelled then leave else (p.setWorker i .cleared, [])
  | some .cleared =>
    match p.queue with
    | [] => (p.setWorker i .left, [])
    | c :: rest =>
      ({ p with queue := rest }.setWorker i (.holding c),
        [.debug (said i s!"分片 #{c.index} 开始上传 (偏移: {c.offset}, 大小: {c.size} bytes)")])
  | some (.holding c) =>
    if cancelled then p.interrupt i c else (p.setWorker i (.uploading c (begins c)), [])
  | some (.failing c f) => ({ p with stopped := true }.setWorker i (.reporting c f), [])
  | some (.reporting c f) =>
    let report := { p.report with failures := p.report.failures ++ [(c.index, f)] }
    ({ p with report := report }.setWorker i .ready, [])
  | _ => (p, [])

/-- Notices a worker that stopped abnormally: the stop sign goes up. -/
def collect (p : Pool σ) : Pool σ × List LogLine :=
  match p.fallen with
  | [] => (p, [])
  | (i, report) :: rest =>
    let r := { p.report with workerErrors := p.report.workerErrors ++ [report] }
    ({ p with stopped := true, report := r, fallen := rest }.setWorker i .left,
      [.error s!"上传线程异常退出: {report}"])

def hasLeft : Worker σ → Bool
  | .left => true
  | _ => false

def isDone (p : Pool σ) : Bool := p.workers.all hasLeft

/-- What came of the parts, when all workers are done. -/
def result (p : Pool σ) : PoolReport := { p.report with unassigned := p.queue.length }

/-- What is said when all workers are done; a pool without parts says nothing. -/
def resultNotice (p : Pool σ) : List LogLine :=
  let r := p.result
  if p.workers.isEmpty then []
  else
    [.debug (s!"上传线程全部结束: 成功={r.completed.length}, 失败={r.failures.length}, "
      ++ s!"中断={r.interrupted.length}, 未领取={r.unassigned}")]

def underWay (p : Pool σ) : Nat :=
  p.workers.countP fun w =>
    match w with
    | .uploading .. => true
    | _ => false

end Pool

end ResumableUpload
