import ResumableUpload.Session.Engine

/-!
# Histories

What may happen to sessions at work: tasks take steps in any order with any replies, sessions are
made, run and cancelled, and around them files change, hosts age and the store goes through a file.
A history plays a list of such actions (`History.after`) and keeps a journal of what happened in
each run (`Event`): the calls it made, how they were answered, and what it did to the store.

Everything that holds of all histories is shown by one induction over the actions
(`History.induct`).
-/

namespace ResumableUpload.Session

/-- Something that happens in a run. -/
inductive Event
  -- the run found its session in this state
  | entered (found : State)
  -- the file was digested, the files being these
  | digested (files : Files) (d : Digest.FileDigests)
  -- the resume record under the key was taken out of the store, if there was one
  | claimed (key : String) (taken : Option Resume.Record)
  -- a call was made, by a worker if one is named
  | called (worker : Option Nat) (c : Call)
  -- a call under way was answered
  | answered (worker : Option Nat) (c : Call) (r : Reply)
  -- a part failed for good
  | partFailed (c : Chunk) (f : UploadFault)
  -- the part with this number was given up because the session was cancelled
  | partInterrupted (index : Nat)
  -- a worker stopped abnormally
  | workerFell (worker : Nat)
  -- the run looked at what its workers report, and at its token
  | closed (cancelled : Bool)
  -- a resume record was saved
  | saved (key : String) (r : Resume.Record)
  -- the run looked at its token for the last time
  | checked (cancelled : Bool)
  -- the resume record under the key was dropped
  | dropped (key : String)

/-- The reply is one that the call can have. -/
def Call.admits : Call → Reply → Bool
  | .precreate .., .precreate _ | .slice .., .slice _ | .create .., .create _ => true
  | _, .fault _ | _, .crash _ => true
  | _, _ => false

/-- The call that a note speaks of. -/
def Note.call? : Note → Option Call
  | .call c => some c
  | .lookup _ l => some (.locate l.token)
  | _ => none

/-- The calls among notes. -/
def Note.calls (notes : List Note) : List Call := notes.filterMap Note.call?

theorem Note.calls_append (a b : List Note) : calls (a ++ b) = calls a ++ calls b :=
  List.filterMap_append

@[simp] theorem Note.calls_lines (ls : List LogLine) : calls (lines ls) = [] := by
  rw [calls, lines, List.filterMap_map]
  exact List.filterMap_eq_nil_iff.mpr fun _ _ => rfl

/-- What an event does to the store. -/
def Event.onStore (store : Resume.Store) : Event → Resume.Store
  | .claimed key _ | .dropped key => store.erase key
  | .saved key r => store.insert key r
  | _ => store

/-- The event takes a record out of the store or puts one in. -/
def Event.usesStore : Event → Bool
  | .claimed .. | .saved .. | .dropped _ => true
  | _ => false

/-- The event is that of the request that joins the parts. -/
def Event.isCreate : Event → Bool
  | .called _ (.create ..) => true
  | _ => false

/-! ## Steps of a run -/

namespace Run.Setup

/-- The parts of the file. -/
def plan (s : Setup) : Plan := s.settings.sizing.plan s.target.totalSize

/-- A step of the task of a run, or of one of its workers. -/
def turn (s : Setup) (w : World) (cancelled : Bool) (worker : Option Nat) (stage : Stage)
    (signal : Signal) : Turn :=
  match worker with
  | none => s.main w cancelled stage signal
  | some i => s.worker w cancelled i stage signal

/-- The answer that a step takes up. -/
def answers (s : Setup) (worker : Option Nat) (stage : Stage) (signal : Signal) : List Event :=
  match s.underWay worker stage, signal with
  | some c, .reply r _ => if c.admits r then [.answered worker c r] else []
  | _, _ => []

/-- The parts that a step of a pool gives up. -/
def interruptions (before after : Pool Transfer) : List Event :=
  (after.report.interrupted.drop before.report.interrupted.length).map .partInterrupted

/-- What goes wrong in a step of worker `i`. -/
def upsets (i : Nat) : Stage → Stage → List Event
  | .sending _ before, .sending _ after =>
    match before.workers[i]?, after.workers[i]? with
    | some (.uploading ..), some (.failing c f) => [.partFailed c f]
    | some (.uploading ..), some .crashed => [.workerFell i]
    | _, _ => interruptions before after
  | _, _ => []

/-- What the task of a run does besides making and finishing calls, given the stage that its step
leads to. -/
def deeds (s : Setup) (w : World) : Stage → Signal → Stage → List Event
  | .entering, .go, _ => (w.handles[s.handle]?).toList.map fun h => .entered h.state
  | .hashing _, .go, .claiming _ d => [.digested w.files d]
  | .claiming _ d, .go, _ => [.claimed (s.key d) (w.store.find? (s.key d))]
  | .closing job report, .go, _ =>
    if w.isCancelled s.handle || !report.interrupted.isEmpty then
      [.closed (w.isCancelled s.handle),
        .saved (s.key job.digests) (s.record w { job with plan := marked job.plan report })]
    else [.closed (w.isCancelled s.handle)]
  | .checking _, .go, _ => [.checked (w.isCancelled s.handle)]
  | .finalizing job, .reply (.create _) _, _ => [.dropped (s.key job.digests)]
  | _, _, _ => []

/-- What a step does besides making and finishing calls. -/
def changes (s : Setup) (w : World) (worker : Option Nat) (stage : Stage) (signal : Signal)
    (next : Stage) : List Event :=
  match worker with
  | none => s.deeds w stage signal next
  | some i => upsets i stage next

/-- The events of a step. -/
def events (s : Setup) (w : World) (cancelled : Bool) (worker : Option Nat) (stage : Stage)
    (signal : Signal) : List Event :=
  let turn := s.turn w cancelled worker stage signal
  s.answers worker stage signal ++ s.changes w worker stage signal turn.stage
    ++ (Note.calls turn.notes).map (.called worker)

/-- How an event of a step comes about: what it says, and the stage and signal it needs. -/
inductive Arises (s : Setup) (w : World) : Option Nat → Stage → Signal → Event → Prop
  | answered {worker : Option Nat} {stage : Stage} {c : Call} (r : Reply) (cancels : List Nat) :
      s.underWay worker stage = some c →
      Arises s w worker stage (.reply r cancels) (.answered worker c r)
  | called {worker : Option Nat} {stage : Stage} {sig : Signal} (c : Call) :
      Arises s w worker stage sig (.called worker c)
  | entered {hd : Handle} : w.handles[s.handle]? = some hd →
      Arises s w none .entering .go (.entered hd.state)
  | digested (plan : Plan) (d : Digest.FileDigests) :
      Arises s w none (.hashing plan) .go (.digested w.files d)
  | claimed (plan : Plan) (d : Digest.FileDigests) :
      Arises s w none (.claiming plan d) .go (.claimed (s.key d) (w.store.find? (s.key d)))
  | closed (job : Job) (report : PoolReport) :
      Arises s w none (.closing job report) .go (.closed (w.isCancelled s.handle))
  | saved (job : Job) (report : PoolReport) :
      Arises s w none (.closing job report) .go (.saved (s.key job.digests)
        (s.record w { job with plan := marked job.plan report }))
  | checked (job : Job) : Arises s w none (.checking job) .go (.checked (w.isCancelled s.handle))
  | dropped (job : Job) (sig : Signal) :
      Arises s w none (.finalizing job) sig (.dropped (s.key job.digests))
  | partFailed (i : Nat) (stage : Stage) (sig : Signal) (c : Chunk) (f : UploadFault) :
      Arises s w (some i) stage sig (.partFailed c f)
  | partInterrupted (i : Nat) (stage : Stage) (sig : Signal) (index : Nat) :
      Arises s w (some i) stage sig (.partInterrupted index)
  | workerFell (i : Nat) (stage : Stage) (sig : Signal) :
      Arises s w (some i) stage sig (.workerFell i)

variable {s : Setup} {w : World} {worker : Option Nat} {stage next : Stage} {sig : Signal}
  {x : Event}

theorem arises_of_answers (h : x ∈ s.answers worker stage sig) :
    s.Arises w worker stage sig x := by
  unfold answers at h
  split at h
  · next hcall =>
    split at h
    · rw [List.mem_singleton.mp h]
      exact .answered _ _ hcall
    · cases h
  · cases h

theorem arises_of_deeds (h : x ∈ s.deeds w stage sig next) : s.Arises w none stage sig x := by
  unfold deeds at h
  split at h
  · obtain ⟨hd, hmem, rfl⟩ := List.mem_map.mp h
    exact .entered (Option.mem_toList.mp hmem)
  · rw [List.mem_singleton.mp h]
    exact .digested _ _
  · rw [List.mem_singleton.mp h]
    exact .claimed _ _
  · next job report =>
    split at h
    · rw [List.mem_cons, List.mem_singleton] at h
      rcases h with rfl | rfl
      · exact .closed job report
      · exact .saved job report
    · rw [List.mem_singleton.mp h]
      exact .closed job report
  · rw [List.mem_singleton.mp h]
    exact .checked _
  · rw [List.mem_singleton.mp h]
    exact .dropped _ _
  · cases h

theorem arises_of_upsets {i : Nat} (h : x ∈ upsets i stage next) :
    s.Arises w (some i) stage sig x := by
  unfold upsets at h
  split at h
  · split at h
    · rw [List.mem_singleton.mp h]
      exact .partFailed i _ sig _ _
    · rw [List.mem_singleton.mp h]
      exact .workerFell i _ sig
    · obtain ⟨n, -, rfl⟩ := List.mem_map.mp h
      exact .partInterrupted i _ sig n
  · cases h

/-- The events of a step come about in no other way. -/
theorem arises_of_events {cancelled : Bool} (h : x ∈ s.events w cancelled worker stage sig) :
    s.Arises w worker stage sig x := by
  rw [events, List.mem_append, List.mem_append] at h
  rcases h with (h | h) | h
  · exact arises_of_answers h
  · cases worker with
    | none => exact arises_of_deeds h
    | some i => exact arises_of_upsets h
  · obtain ⟨c, -, rfl⟩ := List.mem_map.mp h
    exact .called c

end Run.Setup

/-! ## Actions -/

/-- Something that happens to sessions at work. -/
inductive Action
  -- a task takes a step
  | signal (t : Task) (s : Signal)
  | addUploader (settings : Settings)
  -- an uploader is added that shares the resolver of another
  | addSharingUploader (settings : Settings) (other : Nat)
  -- a session is made
  | start (id : String) (uploader : Nat) (target : Target)
  -- a session is run
  | run (handle : Nat)
  | cancel (handle : Nat)
  -- the local files change
  | edit (files : Files)
  -- the clock shows another time
  | setClock (now : Int)
  -- the kept host of a resolver is dropped
  | invalidate (resolver : Nat)
  -- time passes for a resolver
  | age (resolver nanos : Nat)
  -- the store is written to a file and read back
  | reload (path : String)

/-- The store is written to a file, and what the file then holds takes its place. -/
def World.reload (w : World) (path : String) : World :=
  match w.store.save w.files path with
  | (files, some _) => { w with files := files }
  | (files, none) =>
    match Resume.Store.load files path with
    | .ok (store, _) => { w with files := files, store := store }
    | .error _ => { w with files := files }

namespace Engine

/-- Changes what sessions share. -/
def withWorld (e : Engine) (change : World → World) : Engine := { e with world := change e.world }

/-- The engine after an action. -/
def act (e : Engine) : Action → Engine
  | .signal t s => (e.signal t s).1
  | .addUploader settings => (e.addUploader settings).1
  | .addSharingUploader settings other => (e.addSharingUploader settings other).1
  | .start id uploader target => (e.start id uploader target).1
  | .run handle => (e.run handle).1
  | .cancel handle => (e.cancel handle).1
  | .edit files => e.withWorld fun w => { w with files := files }
  | .setClock now => e.withWorld fun w => { w with clock := now }
  | .invalidate resolver => e.withWorld fun w => (w.withResolver resolver Resolver.invalidate).1
  | .age resolver nanos =>
    e.withWorld fun w =>
      (w.withResolver resolver fun r => ({ r with now := r.now + nanos }, [])).1
  | .reload path => e.withWorld fun w => w.reload path

/-- The events of a signal to a task. -/
def events (e : Engine) (t : Task) (s : Signal) : List Event :=
  match e.runs[t.run]? with
  | none => []
  | some r =>
    match setup? e.world r.handle with
    | none => []
    | some setup =>
      let cancelled := e.world.isCancelled r.handle
      let s := effective cancelled r.stage s
      setup.events (e.world.cancelAll s.cancels).1 cancelled t.worker r.stage s

end Engine

/-! ## Histories -/

/-- An event of a run. -/
structure Entry where
  run : Nat
  event : Event

/-- Sessions at work, and what happened so far, in order. -/
structure History where
  engine : Engine
  journal : List Entry := []

namespace History

/-- The history before anything happens. -/
def start (w : World) : History := ⟨{ world := w }, []⟩

/-- The events of an action, each with its run. -/
def entries (h : History) : Action → List Entry
  | .signal t s => (h.engine.events t s).map (⟨t.run, ·⟩)
  | _ => []

/-- The history after one more action. -/
def next (h : History) (a : Action) : History := ⟨h.engine.act a, h.journal ++ h.entries a⟩

/-- The history after some more actions. -/
def after (h : History) (as : List Action) : History := as.foldl next h

/-- The events of a run. -/
def of (h : History) (run : Nat) : List Event :=
  h.journal.filterMap fun x => if x.run = run then some x.event else none

theorem after_append (h : History) (as bs : List Action) :
    h.after (as ++ bs) = (h.after as).after bs := List.foldl_append

theorem after_concat (h : History) (as : List Action) (a : Action) :
    h.after (as ++ [a]) = (h.after as).next a := after_append h as [a]

/-- What holds at the start and is kept by every action holds of all histories. -/
theorem induct {P : History → Prop} {h : History} (start : P h)
    (next : ∀ (as : List Action) (a : Action), P (h.after as) → P ((h.after as).next a))
    (as : List Action) : P (h.after as) := by
  suffices hall : ∀ done, P (h.after done) → P ((h.after done).after as) from hall [] start
  induction as with
  | nil => exact fun _ hdone => hdone
  | cons a rest ih =>
    intro done hdone
    have hstep : P (h.after (done ++ [a])) := by
      rw [after_concat]
      exact next done a hdone
    have hrest := ih (done ++ [a]) hstep
    rwa [after_concat] at hrest

/-! ### Events of one run -/

theorem mem_of {h : History} {run : Nat} {x : Event} : x ∈ h.of run ↔ ⟨run, x⟩ ∈ h.journal := by
  rw [of, List.mem_filterMap]
  constructor
  · rintro ⟨⟨r, e⟩, hmem, heq⟩
    simp only [Option.ite_none_right_eq_some, Option.some.injEq] at heq
    obtain ⟨rfl, rfl⟩ := heq
    exact hmem
  · intro hmem
    exact ⟨_, hmem, by rw [if_pos rfl]⟩

theorem of_next_signal (h : History) (t : Task) (s : Signal) (run : Nat) :
    (h.next (.signal t s)).of run
      = h.of run ++ if t.run = run then h.engine.events t s else [] := by
  rw [of, next, entries, List.filterMap_append, List.filterMap_map]
  congr 1
  by_cases hr : t.run = run
  · have hall : (fun x : Entry => if x.run = run then some x.event else none) ∘ (⟨t.run, ·⟩)
        = some := funext fun _ => if_pos hr
    rw [hall, List.filterMap_some, if_pos hr]
  · have hnone : (fun x : Entry => if x.run = run then some x.event else none) ∘ (⟨t.run, ·⟩)
        = fun _ => none := funext fun _ => if_neg hr
    rw [hnone, if_neg hr]
    exact List.filterMap_eq_nil_iff.mpr fun _ _ => rfl

theorem journal_next_other (h : History) {a : Action} (ha : ∀ t s, a ≠ .signal t s) :
    (h.next a).journal = h.journal := by
  cases a with
  | signal t s => exact absurd rfl (ha t s)
  | _ => exact List.append_nil _

end History

/-! ## Small histories

One session uploads a file of one byte to a host that is set for good. -/

namespace Sample

/-- A world with one file. -/
def world : World where
  files := { nodes := [(["home"], .folder true), (["home", "f"], .file ⟨#[1]⟩ true)] }

/-- The file on the server. -/
def target : Target := ⟨"f", "/f", 1, "token", none⟩

/-- The task of the run goes on. -/
def go : Action := .signal ⟨0, none⟩ .go

/-- The task of the run has a reply. -/
def reply (r : Reply) : Action := .signal ⟨0, none⟩ (.reply r [])

/-- The worker goes on. -/
def work : Action := .signal ⟨0, some 0⟩ .go

/-- The run announces the upload and has the identifier `U`. -/
def opened : List Action :=
  [.addUploader { useDynamicUploadApi := false }, .start "s" 0 target, .run 0, go, go, go, go, go,
    reply (.precreate { errno := 0, uploadId := "U" })]

/-- The run finds a host, and the worker sends the part. -/
def sending : List Action := opened ++ [go, go, work, work, work, work, work, work, work]

/-! ### Two parts

The file has two bytes and is sent byte by byte. The second part is sent first, and answered first.
-/

namespace Pair

/-- A world with the file. -/
def world : World where
  files := { nodes := [(["home"], .folder true), (["home", "f"], .file ⟨#[1, 2]⟩ true)] }

/-- What the run goes by. -/
def setup : Run.Setup :=
  ⟨0, ⟨"f", "/f", 2, "token", none⟩, { useDynamicUploadApi := false, customUploadPartSize := 1 }, 0⟩

/-- Worker `i` goes on `n` times. -/
def work (i n : Nat) : List Action := List.replicate n (.signal ⟨0, some i⟩ .go)

/-- The run announces the upload, and its two workers send the parts. -/
def sending : List Action :=
  [.addUploader setup.settings, .start "s" 0 setup.target, .run 0, go, go, go, go, go,
    reply (.precreate { errno := 0, uploadId := "U" }), go, go] ++ work 0 3 ++ work 1 7 ++ work 0 4

/-- The part of worker `i` is answered, and the worker finds no other. -/
def accepted (i : Nat) : List Action := .signal ⟨0, some i⟩ (.reply (.slice {}) []) :: work i 3

/-- The parts are joined. -/
def committed : List Action :=
  sending ++ accepted 1 ++ accepted 0 ++ [go, go, go, reply (.create { fsId := 7 }), go]

end Pair

end Sample

end ResumableUpload.Session
