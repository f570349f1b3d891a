import ResumableUpload.Proofs.Session.Labour
import ResumableUpload.Proofs.Session.Parts

/-!
# Parts that fail and workers that stop abnormally

What a pool knows of parts that failed and of workers that stopped abnormally, in its report or with
its workers, is what happened in the run (`Recorded`). A pool of a session that is never cancelled
has made none of the moves that come of a cancel (`Manned`). Both hold while parts are sent
(`kept_tends`).
-/

namespace ResumableUpload

/-- The part that a worker has failed to send, and why. -/
def Worker.blame? : Worker σ → Option (Chunk × UploadFault)
  | .failing c f | .reporting c f => some (c, f)
  | _ => none

/-- A fault that some worker has kept stays with it, unless that worker is the one that comes to
another place. -/
theorem Worker.blame_set {ws : List (Worker σ)} {i : Nat} {wk : Worker σ} (new : Worker σ)
    {x : Chunk × UploadFault} (hi : ws[i]? = some wk) (h : ∃ wk' ∈ ws, wk'.blame? = some x) :
    (∃ wk' ∈ ws.set i new, wk'.blame? = some x) ∨ wk.blame? = some x := by
  obtain ⟨wk', hwk', hx⟩ := h
  obtain ⟨j, hj⟩ := List.getElem?_of_mem hwk'
  by_cases hij : i = j
  · subst hij
    obtain rfl : wk = wk' := Option.some.inj (hi.symm.trans hj)
    exact .inr hx
  · exact .inl ⟨wk', List.mem_of_getElem? ((List.getElem?_set_ne hij).trans hj), hx⟩

namespace Session

/-! ## What the report tells -/

/-- The event tells of a part that failed, or of a worker that stopped abnormally. -/
def Event.isMishap : Event → Bool
  | .partFailed .. | .workerFell _ => true
  | _ => false

/-- What a pool knows of parts that failed and of workers that stopped abnormally is what
happened. -/
structure Recorded (pool : Pool Transfer) (evs : List Event) : Prop where
  failed : ∀ c f, .partFailed c f ∈ evs →
    (c.index, f) ∈ pool.report.failures ∨ ∃ wk ∈ pool.workers, wk.blame? = some (c, f)
  failures : ∀ x ∈ pool.report.failures, ∃ c, c.index = x.1 ∧ .partFailed c x.2 ∈ evs
  blamed : ∀ wk ∈ pool.workers, ∀ c f, wk.blame? = some (c, f) → .partFailed c f ∈ evs
  fell : (∃ i, .workerFell i ∈ evs) ↔ pool.report.workerErrors ≠ [] ∨ pool.fallen ≠ []

namespace Recorded

variable {pool : Pool Transfer} {evs new : List Event} {i : Nat} {wk wk' : Worker Transfer}

theorem start (threads : Nat) (chunks : List Chunk) (hevs : ∀ x ∈ evs, x.isMishap = false) :
    Recorded (.start threads chunks) evs where
  failed c f h := by cases hevs _ h
  failures x hx := absurd hx List.not_mem_nil
  blamed wk hwk c f hblame := by
    rw [List.eq_of_mem_replicate hwk] at hblame
    cases hblame
  fell := by
    constructor
    · rintro ⟨i, h⟩
      cases hevs _ h
    · rintro (h | h)
      · exact absurd rfl h
      · exact absurd rfl h

/-- Nothing goes wrong. -/
theorem quiet (h : Recorded pool evs) (hnew : ∀ x ∈ new, x.isMishap = false) :
    Recorded pool (evs ++ new) := by
  refine ⟨fun c f hmem => ?_, fun x hx => ?_, fun wk hwk c f hf => ?_, ?_⟩
  · rcases List.mem_append.mp hmem with hold | hnow
    · exact h.failed c f hold
    · cases hnew _ hnow
  · obtain ⟨c, hc, hmem⟩ := h.failures x hx
    exact ⟨c, hc, List.mem_append_left _ hmem⟩
  · exact List.mem_append_left _ (h.blamed wk hwk c f hf)
  · rw [← h.fell]
    constructor
    · rintro ⟨j, hmem⟩
      rcases List.mem_append.mp hmem with hold | hnow
      · exact ⟨j, hold⟩
      · cases hnew _ hnow
    · rintro ⟨j, hmem⟩
      exact ⟨j, List.mem_append_left _ hmem⟩

/-- A worker comes to another place, with the fault that it had if it had one. -/
theorem moves (h : Recorded pool evs) {next : Pool Transfer} (hi : pool.workers[i]? = some wk)
    (hworkers : next.workers = pool.workers.set i wk') (hblame : wk'.blame? = wk.blame?)
    (hfailures : next.report.failures = pool.report.failures)
    (herrors : next.report.workerErrors = pool.report.workerErrors)
    (hfallen : next.fallen = pool.fallen) : Recorded next evs := by
  have hlt : i < pool.workers.length := (List.getElem?_eq_some_iff.mp hi).1
  refine ⟨fun c f hmem => ?_, fun x hx => h.failures x (hfailures ▸ hx),
    fun wk₁ hwk₁ c f hf => ?_, by rw [herrors, hfallen, h.fell]⟩
  · rcases h.failed c f hmem with hfail | hkept
    · exact .inl (hfailures ▸ hfail)
    · rw [hworkers]
      rcases Worker.blame_set wk' hi hkept with hkept | hx
      · exact .inr hkept
      · exact .inr ⟨wk', List.mem_of_getElem? (List.getElem?_set_self hlt), hblame.trans hx⟩
  · rw [hworkers] at hwk₁
    rcases List.mem_or_eq_of_mem_set hwk₁ with hwk₁ | rfl
    · exact h.blamed wk₁ hwk₁ c f hf
    · exact h.blamed wk (List.mem_of_getElem? hi) c f (hblame ▸ hf)

/-- A part fails: its worker keeps the fault. -/
theorem fails (h : Recorded pool evs) (hi : pool.workers[i]? = some wk) (hwk : wk.blame? = none)
    {before after : List Event} (hbefore : ∀ x ∈ before, x.isMishap = false)
    (hafter : ∀ x ∈ after, x.isMishap = false) (c : Chunk) (f : UploadFault) :
    Recorded (pool.setWorker i (.failing c f)) (evs ++ (before ++ [.partFailed c f] ++ after)) := by
  have hlt : i < pool.workers.length := (List.getElem?_eq_some_iff.mp hi).1
  have hmem : ∀ x, x.isMishap = true → x ∈ evs ++ (before ++ [.partFailed c f] ++ after) →
      x ∈ evs ∨ x = .partFailed c f := by
    intro x hx hmem
    simp only [List.mem_append, List.mem_singleton] at hmem
    rcases hmem with hmem | (hmem | hmem) | hmem
    · exact .inl hmem
    · rw [hbefore x hmem] at hx
      cases hx
    · exact .inr hmem
    · rw [hafter x hmem] at hx
      cases hx
  refine ⟨fun c' f' hf' => ?_, fun x hx => ?_, fun wk₁ hwk₁ c' f' hf' => ?_, ?_⟩
  · rcases hmem _ rfl hf' with hold | hnew
    · refine (h.failed c' f' hold).imp_right fun hkept => ?_
      exact (Worker.blame_set _ hi hkept).resolve_right (by simp [hwk])
    · injection hnew with hc hf
      subst hc hf
      exact .inr ⟨_, List.mem_of_getElem? (List.getElem?_set_self hlt), rfl⟩
  · obtain ⟨c', hc', hold⟩ := h.failures x hx
    exact ⟨c', hc', List.mem_append_left _ hold⟩
  · rcases Pool.mem_setWorker hwk₁ with hold | rfl
    · exact List.mem_append_left _ (h.blamed wk₁ hold c' f' hf')
    · cases hf'
      simp
  · rw [show (pool.setWorker i (.failing c f)).report = pool.report from rfl,
      show (pool.setWorker i (.failing c f)).fallen = pool.fallen from rfl, ← h.fell]
    constructor
    · rintro ⟨j, hj⟩
      rcases hmem _ rfl hj with hold | hnew
      · exact ⟨j, hold⟩
      · cases hnew
    · rintro ⟨j, hj⟩
      exact ⟨j, List.mem_append_left _ hj⟩

/-- A worker reports the fault that it has kept. -/
theorem reports (h : Recorded pool evs) {c : Chunk} {f : UploadFault}
    (hi : pool.workers[i]? = some (.reporting c f)) :
    Recorded ({ pool with
        report := { pool.report with failures := pool.report.failures ++ [(c.index, f)] }
      }.setWorker i .ready) evs := by
  refine ⟨fun c' f' hf' => ?_, fun x hx => ?_, fun wk₁ hwk₁ c' f' hf' => ?_, h.fell⟩
  · rcases h.failed c' f' hf' with hfail | hkept
    · exact .inl (List.mem_append_left _ hfail)
    · rcases Worker.blame_set .ready hi hkept with hkept | hx
      · exact .inr hkept
      · cases hx
        exact .inl (List.mem_append_right _ List.mem_cons_self)
  · rcases List.mem_append.mp hx with hx | hx
    · exact h.failures x hx
    · rw [List.mem_singleton.mp hx]
      exact ⟨c, rfl, h.blamed _ (List.mem_of_getElem? hi) c f rfl⟩
  · rcases Pool.mem_setWorker hwk₁ with hmem | rfl
    · exact h.blamed wk₁ hmem c' f' hf'
    · cases hf'

/-- A worker stops abnormally. -/
theorem falls (h : Recorded pool evs) (hi : pool.workers[i]? = some wk) (hwk : wk.blame? = none)
    {before after : List Event} (hbefore : ∀ x ∈ before, x.isMishap = false)
    (hafter : ∀ x ∈ after, x.isMishap = false) (text : String) :
    Recorded (pool.crash i text) (evs ++ (before ++ [.workerFell i] ++ after)) := by
  have hmem : ∀ c f, .partFailed c f ∈ evs ++ (before ++ [.workerFell i] ++ after) →
      .partFailed c f ∈ evs := by
    intro c f hmem
    simp only [List.mem_append, List.mem_singleton, reduceCtorEq, or_false] at hmem
    rcases hmem with hmem | hmem | hmem
    · exact hmem
    · cases hbefore _ hmem
    · cases hafter _ hmem
  refine ⟨fun c' f' hf' => ?_, fun x hx => ?_, fun wk₁ hwk₁ c' f' hf' => ?_, ?_⟩
  · refine (h.failed c' f' (hmem _ _ hf')).imp_right fun hkept => ?_
    exact (Worker.blame_set _ hi hkept).resolve_right (by simp [hwk])
  · obtain ⟨c', hc', hold⟩ := h.failures x hx
    exact ⟨c', hc', List.mem_append_left _ hold⟩
  · rcases Pool.mem_setWorker hwk₁ with hold | rfl
    · exact List.mem_append_left _ (h.blamed wk₁ hold c' f' hf')
    · cases hf'
  · constructor
    · intro _
      exact .inr (List.append_ne_nil_of_right_ne_nil _ (List.cons_ne_nil _ _))
    · intro _
      exact ⟨i, by simp⟩

/-- A worker that stopped abnormally is noticed. -/
theorem collect (h : Recorded pool evs) (hf : pool.Fallen) : Recorded pool.collect.1 evs := by
  unfold Pool.collect
  split
  · exact h
  · next i text rest hfallen =>
    have hi : pool.workers[i]? = some .crashed := by
      rw [← hf.crashed, hfallen]
      exact List.mem_cons_self
    have hfell : ∃ j, .workerFell j ∈ evs := h.fell.mpr (.inr (by rw [hfallen]; simp))
    refine ⟨fun c' f' hf' => ?_, h.failures, fun wk₁ hwk₁ c' f' hf' => ?_, ?_⟩
    · refine (h.failed c' f' hf').imp_right fun hkept => ?_
      exact (Worker.blame_set _ hi hkept).resolve_right (by simp [Worker.blame?])
    · rcases Pool.mem_setWorker hwk₁ with hold | rfl
      · exact h.blamed wk₁ hold c' f' hf'
      · cases hf'
    · constructor
      · intro _
        exact .inl (List.append_ne_nil_of_right_ne_nil _ (List.cons_ne_nil _ _))
      · intro _
        exact hfell

end Recorded

/-! ## While parts are sent -/

namespace Run.Setup

variable {s : Setup} {w : World} {cancelled : Bool} {i : Nat} {job : Job}
  {pool pool' : Pool Transfer}
  {sig : Signal} {evs new : List Event}

theorem not_mishap_answers (s : Setup) (job : Job) (pool : Pool Transfer) (i : Nat)
    (sig : Signal) : ∀ x ∈ s.answers (some i) (.sending job pool) sig, x.isMishap = false := by
  intro x hx
  obtain ⟨c, r, cancels, -, -, rfl⟩ := mem_answers hx
  rfl

theorem not_mishap_calls (s : Setup) (w : World) (i : Nat) (job : Job) (c : Chunk) (t : Transfer)
    (sig : Signal) : ∀ x ∈ s.callsOf w i job c t sig, x.isMishap = false := by
  intro x hx
  obtain ⟨call, -, rfl⟩ := List.mem_map.mp hx
  rfl

theorem not_mishap_interruptions (before after : Pool Transfer) :
    ∀ x ∈ interruptions before after, x.isMishap = false := by
  intro x hx
  obtain ⟨n, -, rfl⟩ := List.mem_map.mp hx
  rfl

/-- A step of a worker that does not upload. -/
theorem recorded_step (h : Recorded pool evs) (cancelled : Bool) :
    Recorded (pool.step (fun _ => .reading) cancelled i).1 evs := by
  unfold Pool.step
  dsimp only
  split
  · next hi => split <;> exact h.moves hi rfl rfl rfl rfl rfl
  · next hi => split <;> exact h.moves hi rfl rfl rfl rfl rfl
  · next hi => split <;> exact h.moves hi rfl rfl rfl rfl rfl
  · next hi => split <;> exact h.moves hi rfl rfl rfl rfl rfl
  · next hi => exact h.moves hi rfl rfl rfl rfl rfl
  · next c f hi => exact h.reports hi
  · exact h

/-- What a worker does keeps the record. -/
theorem Does.recorded (hdoes : s.Does w cancelled i job pool sig new pool')
    (h : Recorded pool evs) : Recorded pool' (evs ++ new) := by
  have hans := s.not_mishap_answers job pool i sig
  have hboth : ∀ c t, ∀ x ∈ s.answers (some i) (.sending job pool) sig
      ++ s.callsOf w i job c t sig, x.isMishap = false := by
    intro c t x hx
    exact (List.mem_append.mp hx).elim (hans x) (s.not_mishap_calls w i job c t sig x)
  have hinter : ∀ c t n, ∀ x ∈ s.answers (some i) (.sending job pool) sig
      ++ [.partInterrupted n] ++ s.callsOf w i job c t sig, x.isMishap = false := by
    intro c t n x hx
    rw [List.mem_append, List.mem_append, List.mem_singleton] at hx
    rcases hx with (hx | rfl) | hx
    · exact hans x hx
    · rfl
    · exact s.not_mishap_calls w i job c t sig x hx
  cases hdoes with
  | rests =>
    rw [List.append_nil]
    exact h
  | steps _ => exact (recorded_step h _).quiet (not_mishap_interruptions _ _)
  | givesUp hi _ =>
    refine Recorded.quiet (h.moves hi rfl rfl rfl rfl rfl) fun x hx => ?_
    rw [List.mem_singleton.mp hx]
    rfl
  | works hi _ => exact Recorded.quiet (h.moves hi rfl rfl rfl rfl rfl) (hboth _ _)
  | completes hi _ => exact Recorded.quiet (h.moves hi rfl rfl rfl rfl rfl) (hboth _ _)
  | fails hi _ _ => exact h.fails hi rfl hans (s.not_mishap_calls w i job _ _ sig) _ _
  | drops hi _ => exact Recorded.quiet (h.moves hi rfl rfl rfl rfl rfl) (hinter _ _ _)
  | falls hi _ => exact h.falls hi rfl hans (s.not_mishap_calls w i job _ _ sig) _

/-- What a worker does is a move of its pool, one that comes of a cancel only if there was one. -/
theorem Does.move (hdoes : s.Does w cancelled i job pool sig new pool')
    (hcancelled : cancelled = true → w.isCancelled s.handle = true) :
    pool' = pool ∨ ∃ m, pool' = pool.move (fun _ => .reading) m ∧
      (m.isCancel = true → w.isCancelled s.handle = true) := by
  have huploading : ∀ {c : Chunk} {t : Transfer}, pool.workers[i]? = some (.uploading c t) →
      pool.uploading? i = some c := by
    intro c t hi
    simp only [Pool.uploading?, hi]
  cases hdoes with
  | rests => exact .inl rfl
  | steps _ => exact .inr ⟨.step i (w.isCancelled s.handle), rfl, fun hc => hc⟩
  | givesUp hi hc =>
    refine .inr ⟨.interrupt i, ?_, fun _ => hcancelled hc⟩
    simp only [Pool.move, huploading hi]
  | @works c t t' hi _ =>
    refine .inr ⟨.work i t', ?_, Bool.noConfusion⟩
    simp only [Pool.move, huploading hi]
  | @completes c t md5 hi _ =>
    refine .inr ⟨.finish i (.ok md5), ?_, Bool.noConfusion⟩
    simp only [Pool.move, huploading hi]
  | @fails c t f hi _ hf =>
    refine .inr ⟨.finish i (.error f), ?_, fun hc => ?_⟩
    · simp only [Pool.move, huploading hi, Pool.finish_fault pool i c hf]
    · cases f with
      | cancelled => exact absurd rfl hf
      | _ => cases hc
  | @drops c t hi hr =>
    refine .inr ⟨.interrupt i, ?_, fun _ => Transfer.cancelled_of_step hr⟩
    simp only [Pool.move, huploading hi]
  | @falls c t text hi _ =>
    refine .inr ⟨.crash i text, ?_, Bool.noConfusion⟩
    simp only [Pool.move, hi]

end Run.Setup

/-- A pool that came about without a cancel. -/
def Manned (job : Job) (pool : Pool Transfer) : Prop :=
  ∃ threads ms, (∀ m ∈ ms, m.isCancel = false) ∧
    pool = (Pool.start threads job.plan.pending).after (fun _ => .reading) ms

theorem Manned.move {job : Job} {pool : Pool Transfer} (h : Manned job pool)
    {m : Pool.Move Transfer} (hm : m.isCancel = false) :
    Manned job (pool.move (fun _ => .reading) m) := by
  obtain ⟨threads, ms, hms, rfl⟩ := h
  refine ⟨threads, ms ++ [m], fun x hx => ?_, (Pool.after_append _ ms [m]).symm⟩
  rcases List.mem_append.mp hx with hx | hx
  · exact hms x hx
  · rw [List.mem_singleton.mp hx]
    exact hm

/-- What is known of a pool while parts are sent. -/
structure Kept (off : Bool) (job : Job) (pool : Pool Transfer) (evs : List Event) : Prop where
  staffed : Staffed job pool
  manned : off = false → Manned job pool
  recorded : Recorded pool evs

theorem kept_tends (s : Run.Setup) : s.Tends Kept where
  begins threads hlocated := by
    refine ⟨staffed_start _ threads, fun _ => ⟨threads, [], nofun, rfl⟩, .start _ _ fun x hx => ?_⟩
    cases hlocated.early x hx <;> rfl
  later h hoff := by
    refine ⟨h.staffed, fun hfalse => h.manned (Bool.eq_false_iff.mpr fun ho => ?_), h.recorded⟩
    rw [hoff ho] at hfalse
    cases hfalse
  collects h := ⟨h.staffed.move .collect, fun hoff => (h.manned hoff).move (m := .collect) rfl,
    h.recorded.collect h.staffed.fallen⟩
  does _ hcancelled h hdoes := by
    refine ⟨?_, ?_, hdoes.recorded h.recorded⟩
    · rcases hdoes.move hcancelled with rfl | ⟨m, rfl, -⟩
      · exact h.staffed
      · exact h.staffed.move m
    · intro hoff
      rcases hdoes.move hcancelled with rfl | ⟨m, rfl, hm⟩
      · exact h.manned hoff
      · refine (h.manned hoff).move ?_
        rw [hoff] at hm
        simpa using hm

end Session

end ResumableUpload
