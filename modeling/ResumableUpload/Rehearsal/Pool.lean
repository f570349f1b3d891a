import ResumableUpload.Pool
import ResumableUpload.Rehearsal.Clockwork

/-!
# Rehearsal of a pool

A pool of workers whose uploads follow a script, one entry for each part, and which may be cancelled
at a set time or by an upload.
-/

namespace ResumableUpload.Rehearsal.Pooling

/-- How the upload of a part ends. -/
inductive Result
  | done (result : Except UploadFault String)
  | crash (text : String)

/-- The upload of a part written down beforehand. -/
structure Upload where
  delay : Nat := 0
  cancels : Bool := false
  result : Result

/-- A task: the one that waits for the workers, or a worker. -/
inductive Task
  | main
  | worker (i : Nat)
  deriving DecidableEq

/-- What timers stand for. -/
inductive Event
  | reply (worker : Nat)
  | cancel

/-- A pool under way. -/
structure State where
  upload : Nat → Upload
  pool : Pool Unit
  cancelled : Bool := false
  /-- Workers that upload, in the order in which they started. -/
  order : List Nat := []
  -- when uploads started, the last one first
  started : List (Nat × Chunk) := []
  peak : Nat := 0
  lines : List LogLine := []

def uploading? (s : State) (i : Nat) : Option Chunk :=
  match s.pool.workers[i]? with
  | some (.uploading c _) => some c
  | _ => none

def isOver (s : State) (i : Nat) : Bool :=
  match s.pool.workers[i]? with
  | some .left | some .crashed | none => true
  | _ => false

/-- The pool after a step of worker `i`. -/
def after (now : Nat) (s : State) (i : Nat) (pool : Pool Unit) (lines : List LogLine) :
    State × Effects Task Event :=
  let before := uploading? s i
  let s := { s with pool := pool, lines := s.lines ++ lines, peak := max s.peak pool.underWay }
  match before, uploading? s i with
  | none, some c =>
    ({ s with order := s.order ++ [i], started := (now, c) :: s.started },
      { timers := [⟨now + (s.upload c.index).delay, 1, .reply i⟩] })
  | some _, none => ({ s with order := s.order.filter (· != i) }, {})
  | _, _ => (s, {})

/-- The task that waits for the workers gets a turn when a worker comes to an end. -/
def wakingMain (i : Nat) (turn : State × Effects Task Event) : State × Effects Task Event :=
  if isOver turn.1 i then (turn.1, { turn.2 with wakes := turn.2.wakes ++ [.main] }) else turn

def go (now : Nat) (s : State) : Task → State × Effects Task Event
  | .main =>
    let (pool, lines) := s.pool.collect
    ({ s with pool := pool, lines := s.lines ++ lines }, {})
  | .worker i =>
    match uploading? s i with
    | some c =>
      if s.cancelled then
        let (pool, lines) := s.pool.interrupt i c
        after now s i pool lines
      else (s, {})
    | none =>
      let (pool, lines) := s.pool.step (fun _ => ()) s.cancelled i
      wakingMain i (after now s i pool lines)

/-- The upload of worker `i` ends. -/
def conclude (now : Nat) (s : State) (i : Nat) (c : Chunk) : State × Effects Task Event :=
  let upload := s.upload c.index
  let wakes := if upload.cancels && !s.cancelled then s.order.map Task.worker else []
  let s := { s with cancelled := s.cancelled || upload.cancels }
  let (s, effects) :=
    match upload.result with
    | .done result =>
      let (pool, lines) := s.pool.finish i c result
      after now s i pool lines
    | .crash text => wakingMain i (after now s i (s.pool.crash i text) [])
  (s, { effects with wakes := effects.wakes ++ wakes })

def fire (now : Nat) (s : State) : Event → State × Effects Task Event
  | .cancel => ({ s with cancelled := true }, { wakes := s.order.map Task.worker })
  | .reply i =>
    match uploading? s i with
    | some c => if s.cancelled then go now s (.worker i) else conclude now s i c
    | none => (s, {})

def machine : Machine State Task Event where
  isRunnable s t :=
    match t with
    | .main => !s.pool.fallen.isEmpty
    | .worker i => !isOver s i && ((uploading? s i).isNone || s.cancelled)
  go := go
  takers s e :=
    match e with
    | .cancel => [none]
    | .reply i => if (uploading? s i).isSome then [some (.worker i)] else []
  keeps s e :=
    match e with
    | .cancel => true
    | .reply i => (uploading? s i).isSome
  fire now s e _ := fire now s e
  isDone s := s.pool.isDone

/-- How a rehearsal ended. -/
structure Ending where
  report : PoolReport
  -- when uploads started
  started : List (Nat × Chunk)
  peak : Nat
  finishedAt : Nat
  lines : List LogLine

def play (threads : Nat) (chunks : List Chunk) (upload : Nat → Upload) (cancelled : Bool)
    (cancelAt : Option Nat) : Ending :=
  let pool : Pool Unit := .start threads chunks
  let state : State := { upload, pool, cancelled, lines := Pool.startNotice threads chunks }
  let scene : Scene State Task Event :=
    { state := state
      queue := (List.range pool.workers.length).map Task.worker
      timers := cancelAt.toList.map fun due => ⟨due, 0, .cancel⟩ }
  let scene := machine.play scene
  let s := scene.state
  ⟨s.pool.result, s.started.reverse, s.peak, scene.now, s.lines ++ s.pool.resultNotice⟩

end ResumableUpload.Rehearsal.Pooling
