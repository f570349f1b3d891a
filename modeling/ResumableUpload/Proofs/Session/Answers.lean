import ResumableUpload.Proofs.Session.Trace
import ResumableUpload.Proofs.Session.Work

/-!
# Calls and their answers

A task waits for the answer of a call only after it has made the call, so every answer in a trace is
one to a call that was made before (`Trace.called`).
-/

namespace ResumableUpload.Session

/-! ## The other workers -/

theorem others_setWorker {σ : Type} (p : Pool σ) {i j : Nat} (hj : j ≠ i) (new : Worker σ) :
    (p.setWorker i new).workers[j]? = p.workers[j]? :=
  List.getElem?_set_ne fun h => hj h.symm

theorem others_step {σ : Type} (begins : Chunk → σ) (cancelled : Bool) (p : Pool σ) {i j : Nat}
    (hj : j ≠ i) : (p.step begins cancelled i).1.workers[j]? = p.workers[j]? := by
  unfold Pool.step
  dsimp only
  split
  · split <;> exact others_setWorker _ hj _
  · split <;> exact others_setWorker _ hj _
  · split <;> exact others_setWorker _ hj _
  · split <;> exact others_setWorker _ hj _
  · exact others_setWorker _ hj _
  · exact others_setWorker _ hj _
  · rfl

theorem others_finish {σ : Type} (p : Pool σ) {i j : Nat} (hj : j ≠ i) (c : Chunk)
    (result : Except UploadFault String) :
    (p.finish i c result).1.workers[j]? = p.workers[j]? := by
  unfold Pool.finish
  split <;> exact others_setWorker _ hj _

namespace Run.Setup

variable {s : Setup} {w : World} {cancelled : Bool} {job : Job} {pool : Pool Transfer}
  {sig : Signal}

/-- A step of a worker leaves the other workers alone. -/
theorem others_worker (s : Setup) (w : World) (cancelled : Bool) (job : Job)
    (pool : Pool Transfer) (sig : Signal) {i j : Nat} (hj : j ≠ i) :
    ∃ pool', (s.worker w cancelled i (.sending job pool) sig).stage = .sending job pool' ∧
      pool'.workers[j]? = pool.workers[j]? := by
  unfold worker
  dsimp only
  split
  · next c t hi =>
    split
    · exact ⟨_, rfl, others_setWorker _ hj _⟩
    · split
      · exact ⟨_, rfl, others_setWorker _ hj _⟩
      · exact ⟨_, rfl, others_finish _ hj _ _⟩
      · exact ⟨_, rfl, others_setWorker _ hj _⟩
  · split
    · exact ⟨_, rfl, others_step _ _ _ hj⟩
    · exact ⟨pool, rfl, rfl⟩

/-- A run starts workers, looks after them, or leaves them alone. -/
theorem main_sending {stage : Stage} {pool' : Pool Transfer}
    (h : (s.main w cancelled stage sig).stage = .sending job pool') :
    (∃ pool, stage = .sending job pool ∧ (pool' = pool ∨ pool' = pool.collect.1)) ∨
      ∃ threads, pool' = .start threads job.plan.pending := by
  have hsteps := steps_main s w cancelled stage sig
  rw [h] at hsteps
  generalize (s.main w cancelled stage sig).world = w' at hsteps
  cases hsteps with
  | idle _ => exact .inl ⟨pool', rfl, .inl rfl⟩
  | collects => exact .inl ⟨_, rfl, .inr rfl⟩
  | finds threads _ => exact .inr ⟨threads, rfl⟩
  | claims hnone => exact absurd rfl (hnone job pool')
  | announces hnone => exact absurd rfl (hnone job pool')
  | opens hnone => exact absurd rfl (hnone job pool')
  | looks _ hnone => exact absurd rfl (hnone job pool')

/-- A worker waits for an answer while the part that it uploads is on its way. -/
theorem underWay_eq_some {i : Nat} {stage : Stage} {c : Call} :
    s.underWay (some i) stage = some c ↔
      ∃ job pool ch payload n e, stage = .sending job pool ∧
        pool.workers[i]? = some (.uploading ch (.attempting payload n (.sending e))) ∧
        c = .slice e.baseUrl job.target.accessToken (Transfer.request job ch payload) := by
  constructor
  · intro h
    cases stage with
    | sending job pool =>
      unfold underWay at h
      dsimp only at h
      split at h
      · next ch payload n e hi =>
        exact ⟨job, pool, ch, payload, n, e, rfl, hi, (Option.some.inj h).symm⟩
      · cases h
    | _ => cases h
  · rintro ⟨job, pool, ch, payload, n, e, rfl, hi, rfl⟩
    simp only [underWay, hi]

theorem eq_of_setWorker {p : Pool Transfer} {i : Nat} {new wk : Worker Transfer}
    (h : (p.setWorker i new).workers[i]? = some wk) : new = wk := by
  rw [Pool.setWorker, List.getElem?_set, if_pos rfl] at h
  split at h
  · exact Option.some.inj h
  · cases h

/-- A worker that was not uploading and takes a part up starts by reading it. -/
theorem reading_of_step {cancelled : Bool} {i : Nat} {c : Chunk} {t : Transfer}
    (hidle : ∀ c t, pool.workers[i]? ≠ some (.uploading c t))
    (h : (pool.step (fun _ => .reading) cancelled i).1.workers[i]? = some (.uploading c t)) :
    t = .reading := by
  unfold Pool.step at h
  dsimp only at h
  split at h
  · split at h <;> cases eq_of_setWorker h
  · split at h <;> cases eq_of_setWorker h
  · split at h <;> cases eq_of_setWorker h
  · split at h
    · cases eq_of_setWorker h
    · cases eq_of_setWorker h
      rfl
  · cases eq_of_setWorker h
  · cases eq_of_setWorker h
  · exact absurd h (hidle _ _)

theorem not_uploading_finish {p : Pool Transfer} {i : Nat} {c d : Chunk} {t : Transfer}
    {result : Except UploadFault String} :
    (p.finish i c result).1.workers[i]? ≠ some (.uploading d t) := by
  intro h
  cases result with
  | ok md5 => cases eq_of_setWorker h
  | error f => cases f <;> cases eq_of_setWorker h

/-- A worker that uploads a part after its own step has just begun to read it, or it uploaded the
part before and went on. -/
theorem uploading_worker {i : Nat} {c : Chunk} {t' : Transfer} {pool' : Pool Transfer}
    (hstage : (s.worker w cancelled i (.sending job pool) sig).stage = .sending job pool')
    (hi' : pool'.workers[i]? = some (.uploading c t')) :
    t' = .reading ∨ ∃ t, pool.workers[i]? = some (.uploading c t) ∧
      (t.step job c (w.isCancelled s.handle) w sig).result = .more t' ∧
      (s.worker w cancelled i (.sending job pool) sig).notes
        = (t.step job c (w.isCancelled s.handle) w sig).notes := by
  by_cases hup : ∃ c t, pool.workers[i]? = some (.uploading c t)
  · obtain ⟨d, t, hi⟩ := hup
    by_cases hgive : (cancelled && t.isWaiting) = true
    · simp only [worker, hi, if_pos hgive] at hstage
      injection hstage with _ hpool
      subst hpool
      cases eq_of_setWorker hi'
    · rw [s.worker_uploading w job sig hi hgive] at hstage ⊢
      cases hr : (t.step job d (w.isCancelled s.handle) w sig).result with
      | more t'' =>
        simp only [hr] at hstage ⊢
        injection hstage with _ hpool
        subst hpool
        cases eq_of_setWorker hi'
        exact .inr ⟨t, hi, hr, rfl⟩
      | done result =>
        simp only [hr] at hstage
        injection hstage with _ hpool
        subst hpool
        exact absurd hi' not_uploading_finish
      | crash text =>
        simp only [hr] at hstage
        injection hstage with _ hpool
        subst hpool
        cases eq_of_setWorker hi'
  · have hidle : ∀ c t, pool.workers[i]? ≠ some (.uploading c t) := fun c t h => hup ⟨c, t, h⟩
    unfold worker at hstage
    dsimp only at hstage
    split at hstage
    · next hi => exact absurd hi (hidle _ _)
    · split at hstage
      · injection hstage with _ hpool
        subst hpool
        exact .inl (reading_of_step hidle hi')
      · injection hstage with _ hpool
        subst hpool
        exact absurd hi' (hidle _ _)

/-- Looking after a worker that fell sets no part on its way. -/
theorem uploading_collect {p : Pool Transfer} {i : Nat} {c : Chunk} {t : Transfer}
    (h : p.collect.1.workers[i]? = some (.uploading c t)) :
    p.workers[i]? = some (.uploading c t) := by
  unfold Pool.collect at h
  split at h
  · exact h
  · next j report rest hfallen =>
    by_cases hj : i = j
    · subst hj
      cases eq_of_setWorker h
    · exact (others_setWorker _ hj _).symm.trans h

/-- A part that is uploaded after a step is about to be read, or was uploaded before as it is, or
its worker has taken the step. -/
theorem uploading_turn {i : Nat} {worker : Option Nat} {stage : Stage} {pool' : Pool Transfer}
    {c : Chunk} {t' : Transfer}
    (hstage : (s.turn w cancelled worker stage sig).stage = .sending job pool')
    (hi' : pool'.workers[i]? = some (.uploading c t')) :
    t' = .reading ∨ ∃ pool t, stage = .sending job pool ∧
      pool.workers[i]? = some (.uploading c t) ∧ (t' = t ∨ worker = some i ∧
        (t.step job c (w.isCancelled s.handle) w sig).result = .more t' ∧
        (s.turn w cancelled worker stage sig).notes
          = (t.step job c (w.isCancelled s.handle) w sig).notes) := by
  cases worker with
  | none =>
    rcases main_sending hstage with ⟨pool, rfl, hsteps⟩ | ⟨threads, rfl⟩
    · refine .inr ⟨pool, t', rfl, ?_, .inl rfl⟩
      rcases hsteps with rfl | rfl
      · exact hi'
      · exact uploading_collect hi'
    · cases List.eq_of_mem_replicate (List.mem_of_getElem? hi')
  | some j =>
    by_cases hsending : ∃ job pool, stage = .sending job pool
    · obtain ⟨job', pool, rfl⟩ := hsending
      by_cases hj : i = j
      · subst hj
        obtain ⟨_, hstage', -⟩ := others_worker s w cancelled job' pool sig (Nat.succ_ne_self i)
        have hjob := hstage'.symm.trans hstage
        injection hjob with hjob _
        subst hjob
        rcases uploading_worker hstage hi' with hreading | ⟨t, hi, hr, hnotes⟩
        · exact .inl hreading
        · exact .inr ⟨pool, t, rfl, hi, .inr ⟨rfl, hr, hnotes⟩⟩
      · obtain ⟨pool'', hstage', hother⟩ := others_worker s w cancelled job' pool sig hj
        rw [show (s.turn w cancelled (some j) (.sending job' pool) sig).stage = _ from hstage']
          at hstage
        injection hstage with hjob hpool
        subst hjob hpool
        exact .inr ⟨pool, t', rfl, hother.symm.trans hi', .inl rfl⟩
    · have hidle : (s.worker w cancelled j stage sig).stage = stage := by
        cases stage with
        | sending job pool => exact absurd ⟨job, pool, rfl⟩ hsending
        | _ => rfl
      exact absurd ⟨job, pool', hidle.symm.trans hstage⟩ hsending

/-- The part that a worker waits for an answer to was on its way before, or was just sent. -/
theorem underWay_turn {i : Nat} {worker : Option Nat} {stage : Stage} {c : Call}
    (h : s.underWay (some i) (s.turn w cancelled worker stage sig).stage = some c) :
    s.underWay (some i) stage = some c ∨
      worker = some i ∧ c ∈ Note.calls (s.turn w cancelled worker stage sig).notes := by
  obtain ⟨job, pool', ch, payload, n, e, hstage, hi', rfl⟩ := underWay_eq_some.mp h
  rcases uploading_turn hstage hi' with hreading | ⟨pool, t, rfl, hi, hsame⟩
  · cases hreading
  · have hbefore : t = .attempting payload n (.sending e) → s.underWay (some i) (.sending job pool)
        = some (.slice e.baseUrl job.target.accessToken (Transfer.request job ch payload)) := by
      rintro rfl
      exact underWay_eq_some.mpr ⟨job, pool, ch, payload, n, e, rfl, hi, rfl⟩
    rcases hsame with heq | ⟨rfl, hr, hnotes⟩
    · exact .inl (hbefore heq.symm)
    · rcases Transfer.sending_step hr with heq | hcall
      · exact .inl (hbefore heq)
      · rw [hnotes]
        exact .inr ⟨rfl, hcall⟩

/-- A step takes up no answer but one to the call that its task waits for. -/
theorem underWay_of_answered {worker who : Option Nat} {stage : Stage} {c : Call} {r : Reply}
    (h : .answered who c r ∈ s.events w cancelled worker stage sig) :
    worker = who ∧ s.underWay worker stage = some c := by
  cases arises_of_events h with
  | answered _ _ hcall => exact ⟨rfl, hcall⟩

end Run.Setup

/-! ## Answers -/

/-- A worker that waits for an answer has made the call, and so has every worker that was answered
before. -/
theorem Trace.called {s : Run.Setup} {off : Bool} {stage : Stage} {evs : List Event}
    (h : Trace s off stage evs) (i : Nat) (c : Call) :
    (s.underWay (some i) stage = some c → .called (some i) c ∈ evs) ∧
      ∀ r, .answered (some i) c r ∈ evs → .called (some i) c ∈ evs := by
  induction h with
  | start => exact ⟨fun h => (by cases h), fun r h => (by cases h)⟩
  | @turn off stage evs w cancelled worker signal _ _ _ ih =>
    obtain ⟨hunder, hans⟩ := ih
    constructor
    · intro h
      rcases Run.Setup.underWay_turn h with hbefore | ⟨rfl, hcall⟩
      · exact List.mem_append_left _ (hunder hbefore)
      · apply List.mem_append_right
        apply List.mem_append_right
        exact List.mem_map_of_mem hcall
    · intro r hr
      rcases List.mem_append.mp hr with hr | hr
      · exact List.mem_append_left _ (hans r hr)
      · obtain ⟨rfl, hcall⟩ := Run.Setup.underWay_of_answered hr
        exact List.mem_append_left _ (hunder hcall)

end ResumableUpload.Session
