import ResumableUpload.Proofs.Pool.Accounting
import ResumableUpload.Proofs.Session.Trace

/-!
# The parts of a run

The workers of a run and the run that attends to them make the moves of a pool and no others
(`moves_worker`, `Staffed.main`). So what a run looks at when its workers are done accounts for
every part that it wanted to send, in whatever order tasks took their steps and whenever the session
was cancelled (`Trace.accounted`).
-/

namespace ResumableUpload.Session

/-- A pool that came about by moves, with the parts that a run wants to send in its queue. -/
def Staffed (job : Job) (pool : Pool Transfer) : Prop :=
  ∃ threads ms, pool = (Pool.start threads job.plan.pending).after (fun _ => .reading) ms

theorem staffed_start (job : Job) (threads : Nat) :
    Staffed job (.start threads job.plan.pending) := ⟨threads, [], rfl⟩

theorem Staffed.move {job : Job} {pool : Pool Transfer} (h : Staffed job pool)
    (m : Pool.Move Transfer) : Staffed job (pool.move (fun _ => .reading) m) := by
  obtain ⟨threads, ms, rfl⟩ := h
  exact ⟨threads, ms ++ [m], (Pool.after_append _ ms [m]).symm⟩

theorem Staffed.fallen {job : Job} {pool : Pool Transfer} (h : Staffed job pool) :
    pool.Fallen := by
  obtain ⟨threads, ms, rfl⟩ := h
  exact (Pool.shares_after _ (Pool.shares_start threads _) (Pool.fallen_start threads _) ms).1

namespace Run.Setup

variable {s : Setup} {w : World} {cancelled : Bool} {job : Job} {pool : Pool Transfer}
  {sig : Signal}

/-- A step of a worker is a move of its pool, or leaves the pool as it is. -/
theorem moves_worker (s : Setup) (w : World) (cancelled : Bool) (i : Nat) (job : Job)
    (pool : Pool Transfer) (sig : Signal) :
    (s.worker w cancelled i (.sending job pool) sig).stage = .sending job pool ∨
      ∃ m, (s.worker w cancelled i (.sending job pool) sig).stage
        = .sending job (pool.move (fun _ => .reading) m) := by
  unfold worker
  dsimp only
  split
  · next c t hi =>
    have huploading : pool.uploading? i = some c := by simp only [Pool.uploading?, hi]
    split
    · refine .inr ⟨.interrupt i, ?_⟩
      simp only [Pool.move, huploading]
    · split
      · next t' _ =>
        refine .inr ⟨.work i t', ?_⟩
        simp only [Pool.move, huploading]
      · next result _ =>
        refine .inr ⟨.finish i result, ?_⟩
        simp only [Pool.move, huploading]
      · next text _ =>
        refine .inr ⟨.crash i text, ?_⟩
        simp only [Pool.move, hi]
  · split
    · exact .inr ⟨.step i (w.isCancelled s.handle), rfl⟩
    · exact .inl rfl

theorem Staffed.worker (h : Staffed job pool) {i : Nat} {next : Pool Transfer} {job' : Job}
    (hnext : (s.worker w cancelled i (.sending job pool) sig).stage = .sending job' next) :
    Staffed job' next := by
  rcases s.moves_worker w cancelled i job pool sig with hsame | ⟨m, hmove⟩
  · rw [hsame] at hnext
    injection hnext with hjob hpool
    rw [← hjob, ← hpool]
    exact h
  · rw [hmove] at hnext
    injection hnext with hjob hpool
    rw [← hjob, ← hpool]
    exact h.move m

/-- The task of a run starts a pool, or makes a move of it, or leaves it as it is. -/
theorem Staffed.main {stage : Stage} (h : ∀ job pool, stage = .sending job pool → Staffed job pool)
    {next : Pool Transfer} (hnext : (s.main w cancelled stage sig).stage = .sending job next) :
    Staffed job next := by
  have hsteps := s.steps_main w cancelled stage sig
  rw [hnext] at hsteps
  generalize (s.main w cancelled stage sig).world = w' at hsteps
  cases hsteps with
  | idle _ => exact h job next rfl
  | claims hno => exact absurd rfl (hno job next)
  | announces hno => exact absurd rfl (hno job next)
  | opens hno => exact absurd rfl (hno job next)
  | looks _ hno => exact absurd rfl (hno job next)
  | finds threads _ => exact staffed_start job threads
  | collects => exact (h job _ rfl).move .collect

end Run.Setup

/-- Whenever a run sends parts, its pool came about by moves. -/
theorem Trace.staffed {s : Run.Setup} {off : Bool} {stage : Stage} {evs : List Event}
    (h : Trace s off stage evs) :
    ∀ job pool, stage = .sending job pool → Staffed job pool := by
  induction h with
  | start => exact fun _ _ => Stage.noConfusion
  | @turn off stage evs w cancelled worker signal _ _ _ ih =>
    intro job next hnext
    cases worker with
    | none => exact Run.Setup.Staffed.main ih hnext
    | some i =>
      cases stage with
      | sending job pool => exact Run.Setup.Staffed.worker (ih job pool rfl) hnext
      | _ => cases hnext

/-- When the workers of a run are done, their report accounts for every part that the run wanted to
send. -/
theorem Trace.accounted {s : Run.Setup} {off : Bool} {job job' : Job} {pool : Pool Transfer}
    {evs : List Event} (h : Trace s off (.sending job pool) evs) {w : World} {cancelled : Bool}
    {sig : Signal} {report : PoolReport}
    (hclose : (s.main w cancelled (.sending job pool) sig).stage = .closing job' report) :
    ∃ handed, Pool.Accounted job.plan.pending handed report := by
  obtain ⟨threads, ms, hpool⟩ := h.staffed job pool rfl
  have hdone : pool.isDone = true ∧ report = pool.result := by
    cases sig with
    | go =>
      simp only [Run.Setup.main, Run.Setup.attend] at hclose
      split at hclose
      · cases hclose
      · split at hclose
        · next hdone =>
          injection hclose with _ hreport
          exact ⟨hdone, hreport.symm⟩
        · cases hclose
    | _ => cases hclose
  rw [hdone.2]
  rw [hpool] at hdone ⊢
  exact ⟨_, Pool.accounted_after _ threads job.plan.pending ms hdone.1⟩

end ResumableUpload.Session
