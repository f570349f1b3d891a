import ResumableUpload.Proofs.Pool.Accounting

/-!
# Trouble in a pool

A part that fails leaves its fault with the worker that had it, and then in the report; a worker
that stops abnormally is put down until somebody notices. While any of these is there, the pool is
`Troubled`, and when all workers are done the trouble shows in the report (`Troubled.report`).

Without trouble a worker leaves only when the queue is empty, as long as nothing is cancelled
(`Unbroken`). So parts are left over only if one failed or a worker stopped abnormally
(`uploaded_of_untroubled`).
-/

namespace ResumableUpload

/-- The fault of the part that a worker has taken. -/
def Worker.fault? : Worker σ → Option UploadFault
  | .failing _ f | .reporting _ f => some f
  | _ => none

namespace Pool

variable {σ : Type} {p : Pool σ}

theorem finish_fault (p : Pool σ) (i : Nat) (c : Chunk) {f : UploadFault} (hf : f ≠ .cancelled) :
    (p.finish i c (.error f)).1 = p.setWorker i (.failing c f) := by
  cases f with
  | cancelled => exact absurd rfl hf
  | _ => rfl

/-- Something went wrong, and the pool knows it or will be told. -/
def Troubled (p : Pool σ) : Prop :=
  p.report.failures ≠ [] ∨ p.report.interrupted ≠ [] ∨ p.report.workerErrors ≠ [] ∨
    p.fallen ≠ [] ∨ ∃ wk ∈ p.workers, wk.fault?.isSome = true

theorem mem_setWorker {i : Nat} {new wk : Worker σ} (h : wk ∈ (p.setWorker i new).workers) :
    wk ∈ p.workers ∨ wk = new :=
  List.mem_or_eq_of_mem_set h

/-- Trouble stays if the worker that steps back does not take a fault with it. -/
theorem Troubled.setWorker (h : p.Troubled) {i : Nat} {old new : Worker σ}
    (hi : p.workers[i]? = some old)
    (hkeep : old.fault?.isSome = true → new.fault?.isSome = true) :
    (p.setWorker i new).Troubled := by
  rcases h with h | h | h | h | ⟨wk, hwk, hfault⟩
  · exact .inl h
  · exact .inr (.inl h)
  · exact .inr (.inr (.inl h))
  · exact .inr (.inr (.inr (.inl h)))
  · refine .inr (.inr (.inr (.inr ?_)))
    have hlt : i < p.workers.length := (List.getElem?_eq_some_iff.mp hi).1
    obtain ⟨j, hj⟩ := List.getElem?_of_mem hwk
    by_cases hij : i = j
    · subst hij
      have hold : old = wk := Option.some.inj (hi.symm.trans hj)
      exact ⟨new, List.mem_of_getElem? (List.getElem?_set_self hlt), hkeep (hold ▸ hfault)⟩
    · refine ⟨wk, List.mem_of_getElem? (i := j) ?_, hfault⟩
      exact (List.getElem?_set_ne hij).trans hj

/-- When all workers are done and none has fallen, trouble shows in the report. -/
theorem Troubled.report (h : p.Troubled) (hdone : p.isDone = true) (hfallen : p.fallen = []) :
    p.report.failures ≠ [] ∨ p.report.interrupted ≠ [] ∨ p.report.workerErrors ≠ [] := by
  rcases h with h | h | h | h | ⟨wk, hwk, hfault⟩
  · exact .inl h
  · exact .inr (.inl h)
  · exact .inr (.inr h)
  · exact absurd hfallen h
  · have hleft := List.all_eq_true.mp hdone wk hwk
    cases wk <;> simp_all [hasLeft, Worker.fault?]

/-! ## Trouble stays -/

variable {begins : Chunk → σ}

theorem troubled_interrupt (p : Pool σ) (i : Nat) (c : Chunk) : (p.interrupt i c).1.Troubled :=
  .inr (.inl (List.append_ne_nil_of_right_ne_nil _ (List.cons_ne_nil _ _)))

theorem troubled_crash (p : Pool σ) (i : Nat) (text : String) : (p.crash i text).Troubled :=
  .inr (.inr (.inr (.inl (List.append_ne_nil_of_right_ne_nil _ (List.cons_ne_nil _ _)))))

theorem Troubled.finish (h : p.Troubled) {i : Nat} {c : Chunk} {work : σ}
    (hi : p.workers[i]? = some (.uploading c work)) (result : Except UploadFault String) :
    (p.finish i c result).1.Troubled := by
  cases result with
  | ok md5 => exact h.setWorker hi Bool.noConfusion
  | error f =>
    by_cases hf : f = .cancelled
    · subst hf
      exact troubled_interrupt p i c
    · rw [finish_fault p i c hf]
      exact h.setWorker hi fun _ => rfl

/-! ## Pools that nobody cancels -/

/-- The move comes of a cancelled token. -/
def Move.isCancel : Move σ → Bool
  | .step _ cancelled => cancelled
  | .interrupt _ => true
  | .finish _ (.error .cancelled) => true
  | _ => false

/-- What holds of a pool whose token was never cancelled. -/
structure Unbroken (p : Pool σ) : Prop where
  interrupted : p.report.interrupted = []
  -- the stop sign goes up for a reason
  stopped : p.stopped = true → p.Troubled
  -- a worker leaves because nothing is left to do, or for the same reason
  left : .left ∈ p.workers → p.queue = [] ∨ p.Troubled

theorem unbroken_start (threads : Nat) (chunks : List Chunk) :
    (start threads chunks : Pool σ).Unbroken where
  interrupted := rfl
  stopped := Bool.noConfusion
  left h := by cases List.eq_of_mem_replicate h

theorem Unbroken.of_eq (h : p.Unbroken) {p' : Pool σ} {i : Nat} {new : Worker σ}
    (hworkers : p'.workers = p.workers.set i new)
    (hinterrupted : p'.report.interrupted = p.report.interrupted)
    (hstopped : p'.stopped = true → p.stopped = true ∨ p'.Troubled)
    (hqueue : p.queue = [] → p'.queue = []) (htrouble : p.Troubled → p'.Troubled)
    (hnew : new = .left → p'.queue = [] ∨ p'.Troubled) : p'.Unbroken where
  interrupted := hinterrupted.trans h.interrupted
  stopped hs := (hstopped hs).elim (fun hold => htrouble (h.stopped hold)) fun ht => ht
  left hleft := by
    rw [hworkers] at hleft
    rcases List.mem_or_eq_of_mem_set hleft with hold | heq
    · exact (h.left hold).imp hqueue htrouble
    · exact hnew heq.symm

/-- A worker comes to another place, and all else stays as it is. -/
theorem Unbroken.setWorker (h : p.Unbroken) {i : Nat} {old new : Worker σ}
    (hi : p.workers[i]? = some old)
    (hkeep : old.fault?.isSome = true → new.fault?.isSome = true)
    (hnew : new = .left → p.queue = [] ∨ p.Troubled) : (p.setWorker i new).Unbroken := by
  have htrouble : p.Troubled → (p.setWorker i new).Troubled := fun ht => ht.setWorker hi hkeep
  exact h.of_eq rfl rfl .inl (fun hq => hq) htrouble fun heq => (hnew heq).imp_right htrouble

theorem Unbroken.step (h : p.Unbroken) (i : Nat) : (p.step begins false i).1.Unbroken := by
  unfold Pool.step
  dsimp only
  split
  · next hi =>
    split
    · next hs => exact h.setWorker hi Bool.noConfusion fun _ => .inr (h.stopped hs)
    · exact h.setWorker hi Bool.noConfusion nofun
  · next hi => exact h.setWorker hi Bool.noConfusion nofun
  · next hi =>
    split
    · next hq => exact h.setWorker hi Bool.noConfusion fun _ => .inl hq
    · next c rest hq =>
      have htrouble : p.Troubled → ({ p with queue := rest }.setWorker i (.holding c)).Troubled :=
        fun ht => Troubled.setWorker (p := { p with queue := rest }) ht hi Bool.noConfusion
      exact h.of_eq rfl rfl .inl (fun hnil => absurd (hq.symm.trans hnil) nofun) htrouble nofun
  · next hi => exact h.setWorker hi Bool.noConfusion nofun
  · next c f hi =>
    have hlt : i < p.workers.length := (List.getElem?_eq_some_iff.mp hi).1
    have hnow : ({ p with stopped := true }.setWorker i (.reporting c f)).Troubled :=
      .inr (.inr (.inr (.inr ⟨_, List.mem_of_getElem? (List.getElem?_set_self hlt), rfl⟩)))
    exact h.of_eq rfl rfl (fun _ => .inr hnow) (fun hq => hq) (fun _ => hnow) nofun
  · next c f hi =>
    have hnow : p.report.failures ++ [(c.index, f)] ≠ [] :=
      List.append_ne_nil_of_right_ne_nil _ (List.cons_ne_nil _ _)
    exact h.of_eq rfl rfl .inl (fun hq => hq) (fun _ => .inl hnow) nofun
  · exact h

theorem Unbroken.finish (h : p.Unbroken) {i : Nat} {c : Chunk} {work : σ}
    (hi : p.workers[i]? = some (.uploading c work)) {result : Except UploadFault String}
    (hresult : result ≠ .error .cancelled) : (p.finish i c result).1.Unbroken := by
  have htrouble := fun ht : p.Troubled => ht.finish hi result
  cases result with
  | ok md5 => exact h.of_eq rfl rfl .inl (fun hq => hq) htrouble nofun
  | error f =>
    have hf : f ≠ .cancelled := fun heq => hresult (congrArg _ heq)
    rw [finish_fault p i c hf] at htrouble ⊢
    exact h.of_eq rfl rfl .inl (fun hq => hq) htrouble nofun

theorem Unbroken.crash (h : p.Unbroken) (i : Nat) (text : String) : (p.crash i text).Unbroken :=
  h.of_eq rfl rfl .inl (fun hq => hq) (fun _ => troubled_crash p i text) nofun

theorem Unbroken.collect (h : p.Unbroken) : p.collect.1.Unbroken := by
  unfold Pool.collect
  split
  · exact h
  · next i text rest _ =>
    have hnow : p.report.workerErrors ++ [text] ≠ [] :=
      List.append_ne_nil_of_right_ne_nil _ (List.cons_ne_nil _ _)
    have htrouble : ({ p with
        stopped := true
        report := { p.report with workerErrors := p.report.workerErrors ++ [text] }
        fallen := rest }.setWorker i .left).Troubled := .inr (.inr (.inl hnow))
    exact h.of_eq rfl rfl (fun _ => .inr htrouble) (fun hq => hq) (fun _ => htrouble)
      fun _ => .inr htrouble

/-- Every move that does not come of a cancelled token keeps a pool unbroken. -/
theorem Unbroken.move (h : p.Unbroken) {m : Move σ} (hm : m.isCancel = false) :
    (p.move begins m).Unbroken := by
  cases m with
  | step i cancelled =>
    cases cancelled with
    | false => exact h.step i
    | true => cases hm
  | work i progress =>
    simp only [Pool.move]
    split
    · next c hc =>
      obtain ⟨work, hi⟩ := uploading?_eq_some hc
      exact h.of_eq rfl rfl .inl (fun hq => hq) (fun ht => ht.setWorker hi Bool.noConfusion)
        fun heq => by cases heq
    · exact h
  | finish i result =>
    simp only [Pool.move]
    split
    · next c hc =>
      obtain ⟨work, hi⟩ := uploading?_eq_some hc
      apply h.finish hi
      rintro rfl
      cases hm
    · exact h
  | interrupt i => cases hm
  | crash i text =>
    simp only [Pool.move]
    split
    · exact h.crash i text
    · exact h.crash i text
    · exact h
  | collect => exact h.collect

theorem unbroken_after (h : p.Unbroken) {ms : List (Move σ)}
    (hms : ∀ m ∈ ms, m.isCancel = false) : (p.after begins ms).Unbroken := by
  induction ms generalizing p with
  | nil => exact h
  | cons m ms ih =>
    exact ih (h.move (hms m List.mem_cons_self)) fun x hx => hms x (List.mem_cons_of_mem m hx)

/-- When the workers of an unbroken pool are done and nothing went wrong, nothing is left over. -/
theorem Unbroken.queue_eq_nil (h : p.Unbroken) (hdone : p.isDone = true) (hfallen : p.fallen = [])
    (hworkers : p.workers = [] → p.queue = []) (hfailures : p.report.failures = [])
    (herrors : p.report.workerErrors = []) : p.queue = [] := by
  cases hwk : p.workers with
  | nil => exact hworkers hwk
  | cons wk rest =>
    have hmem : wk ∈ p.workers := hwk ▸ List.mem_cons_self
    have hleft : .left ∈ p.workers := by
      have hhas := List.all_eq_true.mp hdone wk hmem
      cases wk with
      | left => exact hmem
      | _ => cases hhas
    rcases h.left hleft with hq | htrouble
    · exact hq
    · rcases htrouble.report hdone hfallen with hne | hne | hne
      · exact absurd hfailures hne
      · exact absurd h.interrupted hne
      · exact absurd herrors hne

/-- When the workers of a pool are done whose token was never cancelled, no part was interrupted;
and if no part failed and no worker stopped abnormally, every part was uploaded. -/
theorem uploaded_of_untroubled (begins : Chunk → σ) (threads : Nat) (chunks : List Chunk)
    {ms : List (Move σ)} (hms : ∀ m ∈ ms, m.isCancel = false)
    (hdone : ((start threads chunks).after begins ms).isDone = true) :
    let r := ((start threads chunks).after begins ms).result
    r.interrupted = [] ∧ (r.failures = [] → r.workerErrors = [] →
      r.unassigned = 0 ∧ (r.completed.map Prod.fst).Perm (chunks.map Chunk.index)) := by
  intro r
  have hunbroken : ((start threads chunks).after begins ms).Unbroken :=
    unbroken_after (unbroken_start threads chunks) hms
  have haccounted := accounted_after begins threads chunks ms hdone
  obtain ⟨hf, t, hshares⟩ := shares_after begins (shares_start threads chunks)
    (fallen_start threads chunks) ms
  refine ⟨hunbroken.interrupted, fun hfailures herrors => ?_⟩
  have hworkers : ((start threads chunks).after begins ms).workers = [] →
      ((start threads chunks).after begins ms).queue = [] := by
    intro hnone
    have hlength : ((start threads chunks).after begins ms).workers.length
        = (start threads chunks : Pool σ).workers.length := length_workers_after _ ms
    rw [hnone] at hlength
    have hcount : (start threads chunks : Pool σ).workers.length
        = min (max 1 (min threads 32)) chunks.length := List.length_replicate
    have hchunks : chunks = [] := List.length_eq_zero_iff.mp (by simp at hlength; omega)
    exact (List.append_eq_nil_iff.mp (hshares.queued.trans hchunks)).2
  have hqueue := hunbroken.queue_eq_nil hdone (hf.eq_nil hdone) hworkers hfailures herrors
  have hunassigned : r.unassigned = 0 := congrArg List.length hqueue
  refine ⟨hunassigned, haccounted.success.mp ?_⟩
  apply (isSuccess_iff _).mpr
  show r.failures.length + r.interrupted.length + r.workerErrors.length + r.unassigned = 0
  rw [hfailures, herrors, hunassigned, show r.interrupted = [] from hunbroken.interrupted]
  rfl

end Pool

end ResumableUpload
