import ResumableUpload.Proofs.Plan.Marking
import ResumableUpload.Proofs.Pool.Course
import ResumableUpload.Proofs.Pool.Trouble
import ResumableUpload.Proofs.Session.Transfer

/-!
# Workers at work

While the workers of a run are at work, what the pool knows agrees with what happened (`Working`):
the parts that it counts as completed are those that the server answered, a part that failed or a
worker that fell has left a mark, and a part was interrupted only if the session was cancelled.

What a step may do to a pool is said once (`Moves`), and the invariant is kept by whatever does
no more (`Working.next`); each step of a worker and of the run that attends to them is such a move
(`Run.Setup.working_worker`, `moves_collect`).
-/

namespace ResumableUpload

namespace Session

/-- The event tells of a part that failed or was given up, or of a worker that fell. -/
def Event.isTrouble : Event → Bool
  | .partFailed .. | .partInterrupted _ | .workerFell _ => true
  | _ => false

/-- The part with this number was sent under the identifier of the upload, and the server
answered. -/
def Acknowledged (job : Job) (work : List Event) (n : Nat) : Prop :=
  ∃ i e payload c r, c.index = n ∧
    Event.answered (some i) (.slice e job.target.accessToken (Transfer.request job c payload))
      (.slice r) ∈ work

/-- What may happen while workers are at work: their calls send pending parts. -/
inductive Works (job : Job) : Event → Prop
  | called (i : Nat) {c : Chunk} {x : Call} :
      c ∈ job.plan.pending → Transfer.Sends job c x → Works job (.called (some i) x)
  | answered (i : Nat) (e : String) (payload : ByteArray) {c : Chunk} (r : Reply) :
      c ∈ job.plan.pending → Works job (.answered (some i)
        (.slice e job.target.accessToken (Transfer.request job c payload)) r)
  | partFailed {c : Chunk} (f : UploadFault) : c ∈ job.plan.pending → Works job (.partFailed c f)
  | partInterrupted (n : Nat) : Works job (.partInterrupted n)
  | workerFell (i : Nat) : Works job (.workerFell i)

/-- What the pool knows agrees with what happened. `off` says whether the session was cancelled. -/
structure Working (off : Bool) (job : Job) (pool : Pool Transfer) (work : List Event) : Prop where
  works : ∀ x ∈ work, Works job x
  queued : ∀ c ∈ pool.queue, c ∈ job.plan.pending
  held : ∀ wk ∈ pool.workers, ∀ c, wk.chunk? = some c → c ∈ job.plan.pending
  faults : ∀ wk ∈ pool.workers, wk.fault? ≠ some .cancelled
  failures : ∀ x ∈ pool.report.failures, x.2 ≠ .cancelled
  completed : ∀ n, n ∈ pool.report.completed.map Prod.fst ↔ Acknowledged job work n
  interrupted : pool.report.interrupted ≠ [] → off = true
  troubled : (∃ x ∈ work, x.isTrouble = true) → pool.Troubled

/-- What a step with some events may do to a pool. -/
structure Moves (off : Bool) (job : Job) (pool : Pool Transfer) (evs : List Event)
    (next : Pool Transfer) : Prop where
  works : ∀ x ∈ evs, Works job x
  queued : ∀ c ∈ next.queue, c ∈ pool.queue
  workers : ∀ wk ∈ next.workers, wk ∈ pool.workers ∨
    (∀ c, wk.chunk? = some c → c ∈ job.plan.pending) ∧ wk.fault? ≠ some .cancelled
  failures : ∀ x ∈ next.report.failures, x ∈ pool.report.failures ∨ x.2 ≠ .cancelled
  completed : ∀ n, n ∈ next.report.completed.map Prod.fst ↔
    n ∈ pool.report.completed.map Prod.fst ∨ Acknowledged job evs n
  interrupted : next.report.interrupted ≠ [] → pool.report.interrupted ≠ [] ∨ off = true
  troubled : (pool.Troubled ∨ ∃ x ∈ evs, x.isTrouble = true) → next.Troubled

variable {off : Bool} {job : Job} {pool pool' : Pool Transfer} {work evs : List Event}

theorem acknowledged_append {n : Nat} :
    Acknowledged job (work ++ evs) n ↔ Acknowledged job work n ∨ Acknowledged job evs n := by
  constructor
  · rintro ⟨i, e, payload, c, r, hc, hmem⟩
    rcases List.mem_append.mp hmem with hmem | hmem
    · exact .inl ⟨i, e, payload, c, r, hc, hmem⟩
    · exact .inr ⟨i, e, payload, c, r, hc, hmem⟩
  · rintro (⟨i, e, payload, c, r, hc, hmem⟩ | ⟨i, e, payload, c, r, hc, hmem⟩)
    · exact ⟨i, e, payload, c, r, hc, List.mem_append_left _ hmem⟩
    · exact ⟨i, e, payload, c, r, hc, List.mem_append_right _ hmem⟩

/-- An answer acknowledges the part that was sent, and no other. -/
theorem acknowledged_answer {c : Chunk} {n : Nat} (i : Nat) (e : String) (payload : ByteArray)
    (r : SliceReply) :
    Acknowledged job [.answered (some i)
      (.slice e job.target.accessToken (Transfer.request job c payload)) (.slice r)] n
      ↔ n = c.index := by
  constructor
  · rintro ⟨_, _, _, c', _, hn, hmem⟩
    have heq := List.mem_singleton.mp hmem
    injection heq with _ hcall _
    injection hcall with _ _ hreq
    have hindex : c'.index = c.index := congrArg SliceRequest.partseq hreq
    rw [← hn, hindex]
  · intro hn
    exact ⟨i, e, payload, c, r, hn.symm, List.mem_singleton.mpr rfl⟩

/-- The invariant holds when the workers start. -/
theorem working_start (off : Bool) (job : Job) (threads : Nat) :
    Working off job (.start threads job.plan.pending) [] where
  works x hx := absurd hx List.not_mem_nil
  queued c hc := hc
  held wk hwk c hc := by
    rw [List.eq_of_mem_replicate hwk] at hc
    cases hc
  faults wk hwk := by
    rw [List.eq_of_mem_replicate hwk]
    intro hfault
    cases hfault
  failures x hx := absurd hx List.not_mem_nil
  completed n := by
    constructor
    · intro hn
      cases hn
    · rintro ⟨_, _, _, _, _, _, hmem⟩
      cases hmem
  interrupted h := absurd rfl h
  troubled := by
    rintro ⟨x, hx, -⟩
    cases hx

/-- Every move keeps the invariant. -/
theorem Working.next {off' : Bool} (h : Working off job pool work) (hoff : off = true → off' = true)
    (hm : Moves off' job pool evs pool') : Working off' job pool' (work ++ evs) where
  works x hx := (List.mem_append.mp hx).elim (h.works x) (hm.works x)
  queued c hc := h.queued c (hm.queued c hc)
  held wk hwk := (hm.workers wk hwk).elim (h.held wk) And.left
  faults wk hwk := (hm.workers wk hwk).elim (h.faults wk) And.right
  failures x hx := (hm.failures x hx).elim (h.failures x) fun hne => hne
  completed n := by rw [hm.completed, h.completed, acknowledged_append]
  interrupted hne := (hm.interrupted hne).elim (fun hold => hoff (h.interrupted hold)) fun ho => ho
  troubled := by
    rintro ⟨x, hx, htrouble⟩
    apply hm.troubled
    rcases List.mem_append.mp hx with hx | hx
    · exact .inl (h.troubled ⟨x, hx, htrouble⟩)
    · exact .inr ⟨x, hx, htrouble⟩

/-! ## Moves of a worker -/

section moves

variable {i : Nat} {old new : Worker Transfer} {off' : Bool}

/-- Events that tell of no answered part and of no trouble. -/
structure Quiet (job : Job) (evs : List Event) : Prop where
  works : ∀ x ∈ evs, Works job x
  unanswered : ∀ n, ¬ Acknowledged job evs n
  untroubled : ∀ x ∈ evs, x.isTrouble = false

theorem quiet_nil (job : Job) : Quiet job [] where
  works x hx := absurd hx List.not_mem_nil
  unanswered n := by
    rintro ⟨_, _, _, _, _, _, hmem⟩
    cases hmem
  untroubled x hx := absurd hx List.not_mem_nil

theorem moves_refl (pool : Pool Transfer) : Moves off job pool [] pool where
  works := (quiet_nil job).works
  queued _ hc := hc
  workers _ hwk := .inl hwk
  failures _ hx := .inl hx
  completed n := (or_iff_left ((quiet_nil job).unanswered n)).symm
  interrupted h := .inl h
  troubled := by
    rintro (h | ⟨_, hx, -⟩)
    · exact h
    · cases hx

/-- A worker that holds nothing may take any place. -/
theorem sound_of_idle {wk : Worker Transfer} (hchunk : new.chunk? = none)
    (hfault : new.fault? = none) (hwk : wk ∈ (pool.setWorker i new).workers) :
    wk ∈ pool.workers ∨
      (∀ c, wk.chunk? = some c → c ∈ job.plan.pending) ∧ wk.fault? ≠ some .cancelled := by
  rcases Pool.mem_setWorker hwk with hold | rfl
  · exact .inl hold
  · rw [hchunk, hfault]
    refine .inr ⟨fun c hc => ?_, fun hf => ?_⟩
    · cases hc
    · cases hf

/-- A worker takes the place of another, and the queue is no longer than before. -/
theorem moves_setWorker {queue : List Chunk} {stopped : Bool} (hevs : Quiet job evs)
    (hi : pool.workers[i]? = some old) (hqueue : ∀ c ∈ queue, c ∈ pool.queue)
    (hchunk : ∀ c, new.chunk? = some c → c ∈ job.plan.pending)
    (hfault : new.fault? ≠ some .cancelled)
    (hkeep : old.fault?.isSome = true → new.fault?.isSome = true) :
    Moves off job pool evs ({ pool with queue := queue, stopped := stopped }.setWorker i new) where
  works := hevs.works
  queued := hqueue
  workers wk hwk := by
    rcases Pool.mem_setWorker hwk with hold | rfl
    · exact .inl hold
    · exact .inr ⟨hchunk, hfault⟩
  failures x hx := .inl hx
  completed n := (or_iff_left (hevs.unanswered n)).symm
  interrupted h := .inl h
  troubled := by
    rintro (h | ⟨x, hx, htrouble⟩)
    · exact Pool.Troubled.setWorker (p := { pool with queue := queue, stopped := stopped }) h hi
        hkeep
    · rw [hevs.untroubled x hx] at htrouble
      cases htrouble

/-- A part is given up: the report says so. -/
theorem moves_interrupt (hworks : ∀ x ∈ evs, Works job x) (hans : ∀ n, ¬ Acknowledged job evs n)
    (hoff : off = true) (i : Nat) (c : Chunk) :
    Moves off job pool evs (pool.interrupt i c).1 where
  works := hworks
  queued _ hc := hc
  workers _ hwk := sound_of_idle rfl rfl hwk
  failures _ hx := .inl hx
  completed n := (or_iff_left (hans n)).symm
  interrupted _ := .inr hoff
  troubled _ := .inr (.inl (List.append_ne_nil_of_right_ne_nil _ (List.cons_ne_nil _ _)))

/-- A part is done: it was answered. -/
theorem moves_done {c : Chunk} {calls : List Event} (j : Nat) (e : String) (payload : ByteArray)
    (r : SliceReply) (md5 : String) (hc : c ∈ job.plan.pending) (hcalls : Quiet job calls)
    (hi : pool.workers[i]? = some old) (hold : old.fault? = none) :
    Moves off job pool ([.answered (some j)
        (.slice e job.target.accessToken (Transfer.request job c payload)) (.slice r)] ++ calls)
      (pool.finish i c (.ok md5)).1 where
  works x hx := by
    rcases List.mem_append.mp hx with hx | hx
    · rw [List.mem_singleton.mp hx]
      exact .answered j e payload (.slice r) hc
    · exact hcalls.works x hx
  queued _ hc := hc
  workers _ hwk := sound_of_idle rfl rfl hwk
  failures _ hx := .inl hx
  completed n := by
    rw [acknowledged_append, or_iff_left (hcalls.unanswered n), acknowledged_answer]
    show n ∈ (pool.report.completed ++ [(c.index, md5)]).map Prod.fst ↔ _
    rw [List.map_append, List.mem_append, List.map_singleton, List.mem_singleton]
  interrupted h := .inl h
  troubled := by
    rintro (h | ⟨x, hx, htrouble⟩)
    · apply Pool.Troubled.setWorker h hi
      rw [hold]
      exact Bool.noConfusion
    · rcases List.mem_append.mp hx with hx | hx
      · rw [List.mem_singleton.mp hx] at htrouble
        cases htrouble
      · rw [hcalls.untroubled x hx] at htrouble
        cases htrouble

/-- A part fails for good: the worker that had it keeps the fault. -/
theorem moves_fail {c : Chunk} {f : UploadFault} (hworks : ∀ x ∈ evs, Works job x)
    (hans : ∀ n, ¬ Acknowledged job evs n) (hi : pool.workers[i]? = some old)
    (hc : c ∈ job.plan.pending) (hf : f ≠ .cancelled) :
    Moves off job pool evs (pool.setWorker i (.failing c f)) where
  works := hworks
  queued _ hc := hc
  workers wk hwk := by
    rcases Pool.mem_setWorker hwk with hold | rfl
    · exact .inl hold
    · refine .inr ⟨fun d hd => ?_, fun hfault => hf (Option.some.inj hfault)⟩
      rw [← Option.some.inj hd]
      exact hc
  failures x hx := .inl hx
  completed n := (or_iff_left (hans n)).symm
  interrupted h := .inl h
  troubled _ := by
    have hlt : i < pool.workers.length := (List.getElem?_eq_some_iff.mp hi).1
    exact .inr (.inr (.inr (.inr ⟨_, List.mem_of_getElem? (List.getElem?_set_self hlt), rfl⟩)))

/-- A worker stops abnormally: that will be noticed. -/
theorem moves_crash (hworks : ∀ x ∈ evs, Works job x) (hans : ∀ n, ¬ Acknowledged job evs n)
    (text : String) : Moves off job pool evs (pool.crash i text) where
  works := hworks
  queued _ hc := hc
  workers _ hwk := sound_of_idle rfl rfl hwk
  failures _ hx := .inl hx
  completed n := (or_iff_left (hans n)).symm
  interrupted h := .inl h
  troubled _ :=
    .inr (.inr (.inr (.inl (List.append_ne_nil_of_right_ne_nil _ (List.cons_ne_nil _ _)))))

/-- A worker reports the fault that it has kept. -/
theorem moves_report {c : Chunk} {f : UploadFault} (hf : f ≠ .cancelled) :
    Moves off job pool []
      ({ pool with
          report := { pool.report with failures := pool.report.failures ++ [(c.index, f)] }
        }.setWorker i .ready) where
  works := (quiet_nil job).works
  queued _ hc := hc
  workers _ hwk := sound_of_idle rfl rfl hwk
  failures x hx := by
    rcases List.mem_append.mp hx with hx | hx
    · exact .inl hx
    · rw [List.mem_singleton.mp hx]
      exact .inr hf
  completed n := (or_iff_left ((quiet_nil job).unanswered n)).symm
  interrupted h := .inl h
  troubled _ := .inl (List.append_ne_nil_of_right_ne_nil _ (List.cons_ne_nil _ _))

/-- A worker that stopped abnormally is noticed. -/
theorem moves_collect (pool : Pool Transfer) : Moves off job pool [] pool.collect.1 := by
  unfold Pool.collect
  split
  · exact moves_refl pool
  · exact {
      works := (quiet_nil job).works
      queued := fun _ hc => hc
      workers := fun _ hwk => sound_of_idle rfl rfl hwk
      failures := fun _ hx => .inl hx
      completed := fun n => (or_iff_left ((quiet_nil job).unanswered n)).symm
      interrupted := fun h => .inl h
      troubled := fun _ =>
        .inr (.inr (.inl (List.append_ne_nil_of_right_ne_nil _ (List.cons_ne_nil _ _)))) }

/-- A worker that holds nothing takes the place of one that has met no fault. -/
theorem moves_idle {stopped : Bool} (hi : pool.workers[i]? = some old) (hold : old.fault? = none)
    (hchunk : new.chunk? = none) (hfault : new.fault? = none) :
    Moves off job pool [] ({ pool with stopped := stopped }.setWorker i new) := by
  refine moves_setWorker (quiet_nil job) hi (fun _ hc => hc) ?_ ?_ ?_
  · rw [hchunk]
    intro c hc
    cases hc
  · rw [hfault]
    intro hf
    cases hf
  · rw [hold]
    exact Bool.noConfusion

theorem Quiet.append {a b : List Event} (ha : Quiet job a) (hb : Quiet job b) :
    Quiet job (a ++ b) where
  works x hx := (List.mem_append.mp hx).elim (ha.works x) (hb.works x)
  unanswered n hn := (acknowledged_append.mp hn).elim (ha.unanswered n) (hb.unanswered n)
  untroubled x hx := (List.mem_append.mp hx).elim (ha.untroubled x) (hb.untroubled x)

/-- Among quiet events, one that tells of trouble. -/
theorem Quiet.insert {a b : List Event} (ha : Quiet job a) (hb : Quiet job b) {x : Event}
    (hx : Works job x) (htrouble : x.isTrouble = true) :
    (∀ y ∈ a ++ [x] ++ b, Works job y) ∧ ∀ n, ¬ Acknowledged job (a ++ [x] ++ b) n := by
  constructor
  · intro y hy
    rw [List.mem_append, List.mem_append, List.mem_singleton] at hy
    rcases hy with (hy | rfl) | hy
    · exact ha.works y hy
    · exact hx
    · exact hb.works y hy
  · intro n hn
    rw [acknowledged_append, acknowledged_append] at hn
    rcases hn with (hn | ⟨_, _, _, _, _, _, hmem⟩) | hn
    · exact ha.unanswered n hn
    · rw [← List.mem_singleton.mp hmem] at htrouble
      cases htrouble
    · exact hb.unanswered n hn

theorem interruptions_same {before after : Pool Transfer}
    (h : after.report.interrupted = before.report.interrupted) :
    Run.Setup.interruptions before after = [] := by
  rw [Run.Setup.interruptions, h, List.drop_length, List.map_nil]

theorem interruptions_interrupt (pool : Pool Transfer) (i : Nat) (c : Chunk) :
    Run.Setup.interruptions pool (pool.interrupt i c).1 = [.partInterrupted c.index] := by
  have hreport : (pool.interrupt i c).1.report.interrupted
      = pool.report.interrupted ++ [c.index] := rfl
  rw [Run.Setup.interruptions, hreport, List.drop_left, List.map_singleton]

theorem Moves.uninterrupted (hm : Moves off job pool [] pool')
    (h : pool'.report.interrupted = pool.report.interrupted) :
    Moves off job pool (Run.Setup.interruptions pool pool') pool' := by
  rw [interruptions_same h]
  exact hm

/-- A step of a worker that does not upload. -/
theorem moves_step {begins : Chunk → Transfer} {cancelled : Bool}
    (hoff : cancelled = true → off = true) (h : Working off' job pool work) (i : Nat) :
    Moves off job pool (Run.Setup.interruptions pool (pool.step begins cancelled i).1)
      (pool.step begins cancelled i).1 := by
  unfold Pool.step
  dsimp only
  split
  · next hi =>
    split <;> exact (moves_idle hi rfl rfl rfl).uninterrupted rfl
  · next hi =>
    split <;> exact (moves_idle hi rfl rfl rfl).uninterrupted rfl
  · next hi =>
    split
    · exact (moves_idle hi rfl rfl rfl).uninterrupted rfl
    · next c rest hqueue =>
      have hc : c ∈ pool.queue := by rw [hqueue]; exact List.mem_cons_self
      refine (moves_setWorker (quiet_nil job) hi ?_ ?_ ?_ ?_).uninterrupted rfl
      · intro d hd
        rw [hqueue]
        exact List.mem_cons_of_mem c hd
      · intro d hd
        rw [← Option.some.inj hd]
        exact h.queued c hc
      · intro hf
        cases hf
      · exact Bool.noConfusion
  · next c hi =>
    have hc : c ∈ job.plan.pending := h.held _ (List.mem_of_getElem? hi) c rfl
    split
    · next hcancelled =>
      rw [interruptions_interrupt]
      obtain ⟨hworks, hans⟩ := (quiet_nil job).insert (quiet_nil job) (.partInterrupted c.index) rfl
      exact moves_interrupt hworks hans (hoff hcancelled) i c
    · refine (moves_setWorker (quiet_nil job) hi (fun _ hd => hd) ?_ ?_ ?_).uninterrupted rfl
      · intro d hd
        rw [← Option.some.inj hd]
        exact hc
      · intro hf
        cases hf
      · exact Bool.noConfusion
  · next c f hi =>
    have hmem := List.mem_of_getElem? hi
    refine Moves.uninterrupted ?_ rfl
    refine moves_setWorker (quiet_nil job) hi (fun _ hd => hd) ?_ ?_ fun hf => hf
    · intro d hd
      exact h.held _ hmem d hd
    · have hf := h.faults _ hmem
      exact hf
  · next c f hi =>
    have hf : f ≠ .cancelled := by
      intro hf
      exact h.faults _ (List.mem_of_getElem? hi) (congrArg some hf)
    exact (moves_report hf).uninterrupted rfl
  · exact (moves_refl pool).uninterrupted rfl

end moves

theorem quiet_calls {i : Nat} {c : Chunk} {calls : List Call} (hc : c ∈ job.plan.pending)
    (hcalls : ∀ x ∈ calls, Transfer.Sends job c x) : Quiet job (calls.map (.called (some i))) where
  works x hx := by
    obtain ⟨call, hcall, rfl⟩ := List.mem_map.mp hx
    exact .called i hc (hcalls call hcall)
  unanswered n := by
    rintro ⟨_, _, _, _, _, _, hmem⟩
    obtain ⟨_, -, heq⟩ := List.mem_map.mp hmem
    cases heq
  untroubled x hx := by
    obtain ⟨_, -, rfl⟩ := List.mem_map.mp hx
    rfl

namespace Run.Setup

variable (s : Setup) {w : World} {cancelled : Bool} {i : Nat} {c : Chunk} {t : Transfer}
  {sig : Signal}

/-- A step of worker `i` leads to a pool that the events of the step allow. -/
def Goes (w : World) (cancelled : Bool) (i : Nat) (job : Job) (pool : Pool Transfer)
    (sig : Signal) : Prop :=
  ∃ pool', (s.worker w cancelled i (.sending job pool) sig).stage = .sending job pool' ∧
    Moves (w.isCancelled s.handle) job pool
      (s.events w cancelled (some i) (.sending job pool) sig) pool'

/-- The calls of a step send the part. -/
theorem quiet_step {off : Bool} (hc : c ∈ job.plan.pending) :
    Quiet job ((Note.calls (t.step job c off w sig).notes).map (.called (some i))) :=
  quiet_calls hc fun _ hx => Transfer.sends_step hx

/-- A worker takes up no answer but one to the part that it has sent. -/
theorem answers_worker (job : Job) (sig : Signal)
    (hi : pool.workers[i]? = some (.uploading c t)) :
    s.answers (some i) (.sending job pool) sig = [] ∨
      ∃ payload n e r cancels, t = .attempting payload n (.sending e) ∧ sig = .reply r cancels ∧
        s.answers (some i) (.sending job pool) sig = [.answered (some i)
          (.slice e.baseUrl job.target.accessToken (Transfer.request job c payload)) r] := by
  simp only [answers, underWay, hi]
  cases t with
  | attempting payload n a =>
    cases a with
    | sending e =>
      cases sig with
      | reply r cancels =>
        dsimp only
        split
        · exact .inr ⟨payload, n, e, r, cancels, rfl, rfl, rfl⟩
        · exact .inl rfl
      | _ => exact .inl rfl
    | resolving caller => exact .inl rfl
  | _ => exact .inl rfl

/-- The answer to a part is quiet unless it is the one that makes the part done. -/
theorem quiet_answers (w : World) (cancelled : Bool) (sig : Signal)
    (hi : pool.workers[i]? = some (.uploading c t)) (hc : c ∈ job.plan.pending)
    (hresult : ∀ md5, (t.step job c cancelled w sig).result ≠ .done (.ok md5)) :
    Quiet job (s.answers (some i) (.sending job pool) sig) := by
  rcases s.answers_worker job sig hi with hnil | ⟨payload, n, e, r, cancels, rfl, rfl, hans⟩
  · rw [hnil]
    exact quiet_nil job
  · rw [hans]
    refine ⟨fun x hx => ?_, fun k => ?_, fun x hx => ?_⟩
    · rw [List.mem_singleton.mp hx]
      exact .answered i e.baseUrl payload r hc
    · rintro ⟨_, _, _, _, reply, -, hmem⟩
      have hr : r = .slice reply := by
        have heq := List.mem_singleton.mp hmem
        injection heq with _ _ hr
        exact hr.symm
      exact hresult reply.md5
        (Transfer.step_done_iff.mpr ⟨payload, n, e, reply, cancels, rfl, by rw [hr], rfl⟩)
    · rw [List.mem_singleton.mp hx]
      rfl

/-- The answer that makes a part done. -/
theorem answers_done {md5 : String} (hi : pool.workers[i]? = some (.uploading c t))
    (hresult : (t.step job c cancelled w sig).result = .done (.ok md5)) :
    ∃ e payload reply, s.answers (some i) (.sending job pool) sig = [.answered (some i)
      (.slice e job.target.accessToken (Transfer.request job c payload)) (.slice reply)] := by
  obtain ⟨payload, n, e, reply, cancels, rfl, rfl, -⟩ := Transfer.step_done_iff.mp hresult
  refine ⟨e.baseUrl, payload, reply, ?_⟩
  simp only [answers, underWay, hi, Call.admits, if_true]

/-- The events of a step of a worker, when it is known which pool the step leads to. -/
theorem events_worker {turn : Turn} {pool' : Pool Transfer}
    (hturn : s.worker w cancelled i (.sending job pool) sig = turn)
    (hstage : turn.stage = .sending job pool') :
    s.events w cancelled (some i) (.sending job pool) sig
      = s.answers (some i) (.sending job pool) sig
        ++ upsets i (.sending job pool) (.sending job pool')
        ++ (Note.calls turn.notes).map (.called (some i)) := by
  have hturn' : s.turn w cancelled (some i) (.sending job pool) sig = turn := hturn
  rw [events, hturn', changes, hstage]

theorem upsets_idle {pool' : Pool Transfer} (hi : ∀ c t, pool.workers[i]? ≠ some (.uploading c t)) :
    upsets i (.sending job pool) (.sending job pool') = interruptions pool pool' := by
  unfold upsets
  dsimp only
  split
  · next h _ => exact absurd h (hi _ _)
  · next h _ => exact absurd h (hi _ _)
  · rfl

theorem answers_idle (hi : ∀ c t, pool.workers[i]? ≠ some (.uploading c t)) :
    s.answers (some i) (.sending job pool) sig = [] := by
  have hnone : s.underWay (some i) (.sending job pool) = none := by
    unfold underWay
    dsimp only
    split
    · next h => exact absurd h (hi _ _)
    · rfl
  unfold answers
  rw [hnone]

/-- A step of a worker that does not upload brings no events about, unless it gives a part up. -/
theorem moves_idle_worker {off : Bool} (h : Working off job pool work)
    (hi : ∀ c t, pool.workers[i]? ≠ some (.uploading c t)) :
    s.Goes w cancelled i job pool sig := by
  obtain ⟨pool', lines, hturn, hmoves⟩ : ∃ pool' lines,
      s.worker w cancelled i (.sending job pool) sig
        = ⟨w, .sending job pool', Note.lines lines⟩ ∧
      Moves (w.isCancelled s.handle) job pool (interruptions pool pool') pool' := by
    unfold worker
    dsimp only
    split
    · next hup => exact absurd hup (hi _ _)
    · split
      · exact ⟨_, _, rfl, moves_step (fun hc => hc) h i⟩
      · exact ⟨pool, [], rfl, (moves_refl pool).uninterrupted rfl⟩
  refine ⟨pool', by rw [hturn], ?_⟩
  rw [s.events_worker hturn rfl, s.answers_idle hi, upsets_idle hi, Note.calls_lines,
    List.nil_append, List.map_nil, List.append_nil]
  exact hmoves

/-- What a worker that uploads a part does, unless it gives the part up. -/
theorem worker_uploading (w : World) (job : Job) (sig : Signal)
    (hi : pool.workers[i]? = some (.uploading c t))
    (hgive : ¬ (cancelled && t.isWaiting) = true) :
    s.worker w cancelled i (.sending job pool) sig =
      let turn := t.step job c (w.isCancelled s.handle) w sig
      match turn.result with
      | .more t' => ⟨turn.world, .sending job (pool.setWorker i (.uploading c t')), turn.notes⟩
      | .done result => ⟨turn.world, .sending job (pool.finish i c result).1,
          turn.notes ++ Note.lines (pool.finish i c result).2⟩
      | .crash text => ⟨turn.world, .sending job (pool.crash i text), turn.notes⟩ := by
  cases hresult : (t.step job c (w.isCancelled s.handle) w sig).result with
  | more t' => simp only [worker, hi, if_neg hgive, hresult]
  | done result => simp only [worker, hi, if_neg hgive, hresult]
  | crash text => simp only [worker, hi, if_neg hgive, hresult]

theorem upsets_uploading {p : Pool Transfer} (job : Job) (new : Worker Transfer)
    (hi : pool.workers[i]? = some (.uploading c t)) (hp : p.workers = pool.workers) :
    upsets i (.sending job pool) (.sending job (p.setWorker i new)) =
      match new with
      | .failing c f => [.partFailed c f]
      | .crashed => [.workerFell i]
      | _ => interruptions pool (p.setWorker i new) := by
  have hlt : i < p.workers.length := hp ▸ (List.getElem?_eq_some_iff.mp hi).1
  have hnew : (p.setWorker i new).workers[i]? = some new := List.getElem?_set_self hlt
  simp only [upsets, hi, hnew]
  cases new <;> rfl

theorem upsets_interrupt (job : Job) (hi : pool.workers[i]? = some (.uploading c t)) :
    upsets i (.sending job pool) (.sending job (pool.interrupt i c).1)
      = [.partInterrupted c.index] := by
  rw [← interruptions_interrupt pool i c]
  exact upsets_uploading job .ready hi rfl

/-- A worker gives up the part that it uploads. -/
theorem moves_giving_up (hi : pool.workers[i]? = some (.uploading c t))
    (hcancelled : w.isCancelled s.handle = true) (ht : t.isWaiting = true) :
    s.Goes w true i job pool .go := by
  have hturn : s.worker w true i (.sending job pool) .go
      = ⟨w, .sending job (pool.interrupt i c).1, Note.lines (pool.interrupt i c).2⟩ := by
    simp only [worker, hi, ht, Bool.and_self, if_true]
  have hans : s.answers (some i) (.sending job pool) .go = [] := by
    rcases s.answers_worker job .go hi with hnil | ⟨_, _, _, _, _, -, hreply, -⟩
    · exact hnil
    · cases hreply
  refine ⟨(pool.interrupt i c).1, by rw [hturn], ?_⟩
  rw [s.events_worker hturn rfl, hans, Note.calls_lines, upsets_interrupt job hi]
  obtain ⟨hworks, hans⟩ := (quiet_nil job).insert (quiet_nil job) (.partInterrupted c.index) rfl
  exact moves_interrupt hworks hans hcancelled i c

/-- A step that does not settle the part. -/
theorem moves_going_on {t' : Transfer} (hi : pool.workers[i]? = some (.uploading c t))
    (hc : c ∈ job.plan.pending) (hgive : ¬ (cancelled && t.isWaiting) = true)
    (hr : (t.step job c (w.isCancelled s.handle) w sig).result = .more t') :
    s.Goes w cancelled i job pool sig := by
  have hturn := s.worker_uploading w job sig hi hgive
  simp only [hr] at hturn
  refine ⟨pool.setWorker i (.uploading c t'), by rw [hturn], ?_⟩
  have hups : upsets i (.sending job pool) (.sending job (pool.setWorker i (.uploading c t')))
      = [] := (upsets_uploading job _ hi rfl).trans (interruptions_same rfl)
  rw [s.events_worker hturn rfl, hups, List.append_nil]
  have hanswers : Quiet job (s.answers (some i) (.sending job pool) sig) := by
    apply s.quiet_answers w (w.isCancelled s.handle) sig hi hc
    rw [hr]
    exact fun _ => TransferResult.noConfusion
  refine moves_setWorker (hanswers.append (quiet_step hc)) hi (fun _ hd => hd) ?_ ?_
    Bool.noConfusion
  · intro d hd
    rw [← Option.some.inj hd]
    exact hc
  · intro hf
    cases hf

/-- A step that finishes the part. -/
theorem moves_finishing {md5 : String} (hi : pool.workers[i]? = some (.uploading c t))
    (hc : c ∈ job.plan.pending) (hgive : ¬ (cancelled && t.isWaiting) = true)
    (hr : (t.step job c (w.isCancelled s.handle) w sig).result = .done (.ok md5)) :
    s.Goes w cancelled i job pool sig := by
  have hturn := s.worker_uploading w job sig hi hgive
  simp only [hr] at hturn
  refine ⟨(pool.finish i c (.ok md5)).1, by rw [hturn], ?_⟩
  have hups : upsets i (.sending job pool) (.sending job (pool.finish i c (.ok md5)).1) = [] :=
    (upsets_uploading job .ready hi rfl).trans (interruptions_same rfl)
  obtain ⟨e, payload, reply, hans⟩ := s.answers_done hi hr
  rw [s.events_worker hturn rfl, hups, hans, List.append_nil, Note.calls_append, Note.calls_lines,
    List.append_nil]
  exact moves_done i e payload reply md5 hc (quiet_step hc) hi rfl

/-- A step with which the part fails, be it only for having been cancelled. -/
theorem moves_failing {f : UploadFault} (hi : pool.workers[i]? = some (.uploading c t))
    (hc : c ∈ job.plan.pending) (hgive : ¬ (cancelled && t.isWaiting) = true)
    (hr : (t.step job c (w.isCancelled s.handle) w sig).result = .done (.error f)) :
    s.Goes w cancelled i job pool sig := by
  have hturn := s.worker_uploading w job sig hi hgive
  simp only [hr] at hturn
  refine ⟨(pool.finish i c (.error f)).1, by rw [hturn], ?_⟩
  have hanswers : Quiet job (s.answers (some i) (.sending job pool) sig) := by
    apply s.quiet_answers w (w.isCancelled s.handle) sig hi hc
    rw [hr]
    intro md5 h
    injection h with h
    cases h
  rw [s.events_worker hturn rfl, Note.calls_append, Note.calls_lines, List.append_nil]
  by_cases hf : f = .cancelled
  · subst hf
    show Moves _ job pool (_ ++ upsets i (.sending job pool)
      (.sending job (pool.interrupt i c).1) ++ _) (pool.interrupt i c).1
    rw [upsets_interrupt job hi]
    obtain ⟨hworks, hans⟩ := hanswers.insert (quiet_step hc) (.partInterrupted c.index) rfl
    exact moves_interrupt hworks hans (Transfer.cancelled_of_step hr) i c
  · have hups : upsets i (.sending job pool) (.sending job (pool.setWorker i (.failing c f)))
        = [.partFailed c f] := upsets_uploading job _ hi rfl
    rw [Pool.finish_fault pool i c hf, hups]
    obtain ⟨hworks, hans⟩ := hanswers.insert (quiet_step hc) (.partFailed f hc) rfl
    exact moves_fail hworks hans hi hc hf

/-- A step with which the worker falls. -/
theorem moves_falling {text : String} (hi : pool.workers[i]? = some (.uploading c t))
    (hc : c ∈ job.plan.pending) (hgive : ¬ (cancelled && t.isWaiting) = true)
    (hr : (t.step job c (w.isCancelled s.handle) w sig).result = .crash text) :
    s.Goes w cancelled i job pool sig := by
  have hturn := s.worker_uploading w job sig hi hgive
  simp only [hr] at hturn
  refine ⟨pool.crash i text, by rw [hturn], ?_⟩
  have hups : upsets i (.sending job pool) (.sending job (pool.crash i text)) = [.workerFell i] :=
    upsets_uploading job .crashed hi rfl
  rw [s.events_worker hturn rfl, hups]
  have hanswers : Quiet job (s.answers (some i) (.sending job pool) sig) := by
    apply s.quiet_answers w (w.isCancelled s.handle) sig hi hc
    rw [hr]
    exact fun _ => TransferResult.noConfusion
  obtain ⟨hworks, hans⟩ := hanswers.insert (quiet_step hc) (.workerFell i) rfl
  exact moves_crash hworks hans text

/-- A step of a worker that uploads a part and does not give it up. -/
theorem moves_busy_worker (hi : pool.workers[i]? = some (.uploading c t))
    (hc : c ∈ job.plan.pending) (hgive : ¬ (cancelled && t.isWaiting) = true) :
    s.Goes w cancelled i job pool sig := by
  cases hr : (t.step job c (w.isCancelled s.handle) w sig).result with
  | more t' => exact s.moves_going_on hi hc hgive hr
  | done result =>
    cases result with
    | ok md5 => exact s.moves_finishing hi hc hgive hr
    | error f => exact s.moves_failing hi hc hgive hr
  | crash text => exact s.moves_falling hi hc hgive hr

/-- Every step of a worker keeps the workers at work. -/
theorem working_worker {off : Bool} (h : Working off job pool work)
    (hoff : off = true → cancelled = true)
    (hcancelled : cancelled = true → w.isCancelled s.handle = true) (signal : Signal) :
    let sig := Engine.effective cancelled (.sending job pool) signal
    ∃ pool', (s.worker w cancelled i (.sending job pool) sig).stage = .sending job pool' ∧
      Working (w.isCancelled s.handle) job pool'
        (work ++ s.events w cancelled (some i) (.sending job pool) sig) := by
  intro sig
  have hmoves : s.Goes w cancelled i job pool sig := by
    by_cases hup : ∃ c t, pool.workers[i]? = some (.uploading c t)
    · obtain ⟨c, t, hi⟩ := hup
      by_cases hgive : (cancelled && t.isWaiting) = true
      · obtain ⟨hc, ht⟩ := Bool.and_eq_true_iff.mp hgive
        subst hc
        exact s.moves_giving_up hi (hcancelled rfl) ht
      · exact s.moves_busy_worker hi (h.held _ (List.mem_of_getElem? hi) c rfl) hgive
    · exact s.moves_idle_worker h fun c t hi => hup ⟨c, t, hi⟩
  obtain ⟨pool', hstage, hm⟩ := hmoves
  exact ⟨pool', hstage, h.next (fun ho => hcancelled (hoff ho)) hm⟩

end Run.Setup

end Session

end ResumableUpload
