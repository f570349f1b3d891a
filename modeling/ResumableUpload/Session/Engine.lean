import ResumableUpload.Session.Run

/-!
# Sessions at work

Any number of sessions run at once, each with its workers, and share their files, resume records and
resolvers. The engine takes one step of one task at a time (`Engine.signal`); in what order the
tasks take their steps, and what the server replies, is left open.
-/

namespace ResumableUpload.Session

/-- A task: a run, or one of its workers. -/
structure Task where
  run : Nat
  worker : Option Nat := none
  deriving DecidableEq

/-- Sessions at work. -/
structure Engine where
  world : World := {}
  runs : List Run := []

/-- The sessions that the replying side cancels. -/
def Signal.cancels : Signal → List Nat
  | .reply _ cancels | .lookup _ cancels => cancels
  | _ => []

/-- What keeps a task waiting, if anything does. -/
inductive Wait
  -- nothing: it goes on
  | none
  -- it reads a file
  | file
  -- a reply, within a limit
  | reply
  -- a lookup of a resolver; within a limit if it is for a part
  | lookup (resolver id : Nat)
  | pause
  -- its workers
  | workers
  -- it is done
  | done
  deriving DecidableEq

namespace Engine

/-! ### Sessions -/

def addUploader (e : Engine) (settings : Settings) : Engine × Nat :=
  let w := e.world
  let resolver := w.resolvers.length
  let w := { w with
    resolvers := w.resolvers ++ [{ settings := settings.endpointSettings }]
    uploaders := w.uploaders ++ [⟨settings, resolver⟩] }
  ({ e with world := w }, w.uploaders.length - 1)

def addSharingUploader (e : Engine) (settings : Settings) (other : Nat) : Engine × Nat :=
  match e.world.uploaders[other]? with
  | none => e.addUploader settings
  | some u =>
    let w := { e.world with uploaders := e.world.uploaders ++ [⟨settings, u.resolver⟩] }
    ({ e with world := w }, w.uploaders.length - 1)

def start (e : Engine) (id : String) (uploader : Nat) (target : Target) :
    Engine × Nat × List LogLine :=
  let h : Handle := ⟨id, target, uploader, .created, false⟩
  let w := { e.world with handles := e.world.handles ++ [h] }
  ({ e with world := w }, w.handles.length - 1, [h.startNotice])

def run (e : Engine) (handle : Nat) : Engine × Nat :=
  ({ e with runs := e.runs ++ [⟨handle, .entering⟩] }, e.runs.length)

def cancel (e : Engine) (handle : Nat) : Engine × List LogLine :=
  let (w, lines) := e.world.cancel handle
  ({ e with world := w }, lines)

/-! ### Tasks -/

def setup? (w : World) (handle : Nat) : Option Run.Setup := do
  let h ← w.handles[handle]?
  let u ← w.uploaders[h.uploader]?
  pure ⟨handle, h.target, u.settings, u.resolver⟩

/-- The request that joins the parts is under way, which cannot be cancelled. -/
def isFinalizing : Stage → Bool
  | .finalizing _ => true
  | _ => false

/-- The signal that counts: a cancelled task notices that before anything else. -/
def effective (cancelled : Bool) (stage : Stage) (s : Signal) : Signal :=
  if cancelled && !isFinalizing stage then .go else s

/-- One step of one task. -/
def signal (e : Engine) (t : Task) (s : Signal) : Engine × List Note :=
  match e.runs[t.run]? with
  | none => (e, [])
  | some r =>
    match setup? e.world r.handle with
    | none => (e, [])
    | some setup =>
      let cancelled := e.world.isCancelled r.handle
      let s := effective cancelled r.stage s
      let (w, lines) := e.world.cancelAll s.cancels
      let turn :=
        match t.worker with
        | none => setup.main w cancelled r.stage s
        | some i => setup.worker w cancelled i r.stage s
      ({ world := turn.world, runs := e.runs.set t.run { r with stage := turn.stage } },
        Note.lines lines ++ turn.notes)

def callerWait (resolver : Nat) : Caller → Wait
  | .waiting id => .lookup resolver id
  | _ => .none

def transferWait (job : Job) : Transfer → Wait
  | .reading => .file
  | .ready .. => .none
  | .attempting _ _ (.resolving c) => callerWait job.resolver c
  | .attempting _ _ (.sending _) => .reply
  | .pausing .. => .pause

def stageWait (resolver : Nat) : Stage → Wait
  | .hashing _ => .file
  | .announcing _ _ (.attempting _) => .reply
  | .announcing _ _ (.pausing _ _) => .pause
  | .locating _ c => callerWait resolver c
  | .sending _ pool => if pool.fallen.isEmpty && !pool.isDone then .workers else .none
  | .finalizing _ => .reply
  | .ended _ | .crashed _ => .done
  | _ => .none

def workerWait (job : Job) : Worker Transfer → Wait
  | .uploading _ t => transferWait job t
  | .crashed | .left => .done
  | _ => .none

def wait (e : Engine) (t : Task) : Wait :=
  match e.runs[t.run]? with
  | none => .done
  | some r =>
    match t.worker with
    | none =>
      match setup? e.world r.handle with
      | some setup => stageWait setup.resolver r.stage
      | none => .done
    | some i =>
      match r.stage with
      | .sending job pool =>
        match pool.workers[i]? with
        | some worker => workerWait job worker
        | none => .done
      | _ => .done

/-- The call of a task has a limit. -/
def isLimited (e : Engine) (t : Task) : Bool :=
  match e.runs[t.run]? with
  | none => false
  | some r =>
    match r.stage, t.worker with
    | .announcing _ _ (.attempting _), none | .finalizing _, none => true
    | .sending _ pool, some i =>
      match pool.workers[i]? with
      | some (.uploading _ (.attempting ..)) => true
      | _ => false
    | _, _ => false

/-- The task was cancelled and notices that with its next step. -/
def noticesCancel (e : Engine) (t : Task) : Bool :=
  match e.runs[t.run]? with
  | none => false
  | some r => e.world.isCancelled r.handle && !isFinalizing r.stage

def workers (e : Engine) (run : Nat) : List Task :=
  match e.runs[run]? with
  | some ⟨_, .sending _ pool⟩ => (List.range pool.workers.length).map fun i => ⟨run, some i⟩
  | _ => []

def runsOf (e : Engine) (handle : Nat) : List Nat :=
  e.runs.zipIdx.filterMap fun (r, i) => if r.handle = handle then some i else none

/-- How a run ended. -/
inductive Ending
  | result (r : Except UploadFault Commit)
  | crashed (report : String)

/-- How a run ended, if it has. -/
def ending? (e : Engine) (run : Nat) : Option Ending :=
  match e.runs[run]? with
  | some ⟨_, .ended r⟩ => some (.result r)
  | some ⟨_, .crashed report⟩ => some (.crashed report)
  | _ => none

end Engine

end ResumableUpload.Session
