import ResumableUpload.Proofs.Pool.Draining
import ResumableUpload.Proofs.Session.Attempts
import ResumableUpload.Proofs.Session.Lifecycle

/-!
# Workers come to an end

Nothing that the server does or leaves undone keeps the workers of a run at their parts. An attempt
that gets no answer ends with its limit, and the retries are bounded: each step of this kind takes
something off what is left to do (`Transfer.load_step`). So as long as its session is not cancelled,
a run that sends parts is some steps of its own tasks away from the report, whatever state its
workers are in (`History.drains`).
-/

namespace ResumableUpload.Session

/-- Nothing comes from outside with the signal: the task goes on, its limit has passed, or its wait
is over. -/
def Signal.isInner : Signal → Bool
  | .go | .limit | .wake => true
  | .reply .. | .lookup .. => false

theorem Signal.cancels_of_isInner {sig : Signal} (h : sig.isInner = true) : sig.cancels = [] := by
  cases sig with
  | reply | lookup => cases h
  | _ => rfl

namespace Transfer

variable {job : Job} {c : Chunk} {w : World} {t t' : Transfer}

/-- What is left of the upload of a part that gets no answers. -/
def load (maxRetries : Nat) : Transfer → Nat
  | reading => 3 * maxRetries + 4
  | ready _ n => 3 * (maxRetries - n) + 3
  | attempting _ n _ => 3 * (maxRetries - n) + 2
  | pausing _ n _ => 3 * (maxRetries - n) + 1

/-- The signal that takes the upload of a part further without an answer. -/
def nudge : Transfer → Signal
  | reading | ready .. => .go
  | attempting .. => .limit
  | pausing .. => .wake

theorem isInner_nudge (t : Transfer) : t.nudge.isInner = true := by cases t <;> rfl

/-- An attempt that passes its limit is followed by a pause only within the bound of the retries. -/
theorem load_late {payload : ByteArray} {n : Nat} {a : Attempt}
    (h : (conclude job c payload n w .late).result = .more t') :
    t'.load job.policy.maxRetries < (attempting payload n a).load job.policy.maxRetries := by
  have hresult : (conclude job c payload n w .late).result = (ofLoop job c payload
      ((Retry.Loop.active (.attempting n)).step (operation job c) 0 false (.outcome .late)).1).1 :=
    rfl
  rw [hresult] at h
  rcases Retry.Loop.step_cases (operation job c) 0 false (.attempting n) (.outcome .late) with
    ⟨hc, -⟩ | ⟨-, hgoes⟩
  · cases hc
  · generalize ((Retry.Loop.active (.attempting n)).step (operation job c) 0 false
      (.outcome .late)).1 = loop at hgoes h
    cases hgoes with
    | fails => cases h
    | tires => cases h
    | pauses =>
      cases h
      exact Nat.lt_succ_self _
    | stays _ _ hawaits => cases hawaits

/-- An upload that is nudged has less left to do. -/
theorem load_step (hwithin : t.Within job.policy.maxRetries)
    (h : (t.step job c false w t.nudge).result = .more t') :
    t'.load job.policy.maxRetries < t.load job.policy.maxRetries := by
  cases t with
  | reading =>
    simp only [nudge, step] at h
    split at h
    · cases h
      exact Nat.lt_succ_self _
    · cases h
  | ready payload n =>
    cases h
    exact Nat.lt_succ_self _
  | attempting payload n a =>
    cases a with
    | sending e => exact load_late h
    | resolving caller => cases caller <;> exact load_late h
  | pausing payload n wait =>
    have hn : n < job.policy.maxRetries := hwithin
    cases h
    simp only [load]
    omega

end Transfer

/-- What is left to do of the parts of a run. -/
def Job.weight (job : Job) (pool : Pool Transfer) : Nat :=
  pool.weight (Transfer.load job.policy.maxRetries) (3 * job.policy.maxRetries + 4)

namespace Run.Setup

variable {s : Setup} {w : World} {i : Nat} {job : Job} {pool : Pool Transfer} {c : Chunk}
  {t : Transfer} {wk : Worker Transfer}

/-- A worker that uploads is nudged. -/
theorem weight_uploading (hi : pool.workers[i]? = some (.uploading c t))
    (hw : w.isCancelled s.handle = false) (hwithin : t.Within job.policy.maxRetries) :
    ∃ pool', (s.worker w false i (.sending job pool) t.nudge).stage = .sending job pool' ∧
      job.weight pool' < job.weight pool := by
  rw [s.worker_uploading w job t.nudge hi Bool.noConfusion]
  simp only [hw]
  cases hresult : (t.step job c false w t.nudge).result with
  | more t' =>
    refine ⟨_, rfl, Pool.weight_lt hi rfl rfl ?_⟩
    exact Nat.add_lt_add_left (Transfer.load_step hwithin hresult) 6
  | done result => exact ⟨_, rfl, Pool.weight_finish hi result⟩
  | crash text => exact ⟨_, rfl, Pool.weight_ends hi rfl rfl (by decide : 1 < 6)⟩

/-- A worker that does not upload goes on. -/
theorem weight_idle (hi : pool.workers[i]? = some wk) (hleft : wk ≠ .left)
    (hcrashed : wk ≠ .crashed) (hidle : ∀ c t, wk ≠ .uploading c t)
    (hw : w.isCancelled s.handle = false) :
    ∃ pool', (s.worker w false i (.sending job pool) .go).stage = .sending job pool' ∧
      job.weight pool' < job.weight pool := by
  refine ⟨(pool.step (fun _ => .reading) false i).1, ?_, ?_⟩
  · unfold worker
    dsimp only
    split
    · next c t hup => exact absurd (Option.some.inj (hi.symm.trans hup)) (hidle c t)
    · rw [hw]
  · exact Pool.weight_step (fun _ => Nat.le_refl _) hi hleft hcrashed hidle

/-- Some task of a run that sends parts can go on without anything from outside. Then there is less
left to do, or the workers are done. -/
theorem weight_turn (hf : pool.Fallen)
    (hwithin : ∀ (i : Nat) (c : Chunk) (t : Transfer),
      pool.workers[i]? = some (.uploading c t) → t.Within job.policy.maxRetries)
    (hw : w.isCancelled s.handle = false) : ∃ worker sig, sig.isInner = true ∧
      ((∃ pool', (s.turn w false worker (.sending job pool) sig).stage = .sending job pool' ∧
          job.weight pool' < job.weight pool) ∨
        (s.turn w false worker (.sending job pool) sig).stage = .closing job pool.result) := by
  have hmain : s.turn w false none (.sending job pool) .go = attend w job pool := rfl
  by_cases hfallen : pool.fallen = []
  · cases hdone : pool.isDone with
    | true =>
      refine ⟨none, .go, rfl, .inr ?_⟩
      rw [hmain, attend, hfallen, hdone]
      rfl
    | false =>
      rcases hf.idle_or_busy hdone with hne | ⟨i, wk, hi, hleft, hcrashed⟩
      · exact absurd hfallen hne
      · by_cases hup : ∃ c t, wk = .uploading c t
        · obtain ⟨c, t, rfl⟩ := hup
          exact ⟨some i, t.nudge, t.isInner_nudge, .inl (weight_uploading hi hw (hwithin i c t hi))⟩
        · have hidle : ∀ c t, wk ≠ .uploading c t := fun c t heq => hup ⟨c, t, heq⟩
          exact ⟨some i, .go, rfl, .inl (weight_idle hi hleft hcrashed hidle hw)⟩
  · refine ⟨none, .go, rfl, .inl ⟨pool.collect.1, ?_, Pool.weight_collect hf hfallen⟩⟩
    rw [hmain, attend, if_pos (by simpa using hfallen)]

/-- While parts are sent a step changes nothing but resolvers. -/
theorem same_sending (s : Setup) (w : World) (cancelled : Bool) (worker : Option Nat) (job : Job)
    (pool : Pool Transfer) (sig : Signal) :
    w.SameButResolvers (s.turn w cancelled worker (.sending job pool) sig).world := by
  cases worker with
  | some i => exact s.same_worker w cancelled i _ sig
  | none =>
    have hsteps := s.steps_main w cancelled (.sending job pool) sig
    show w.SameButResolvers (s.main w cancelled (.sending job pool) sig).world
    generalize s.main w cancelled (.sending job pool) sig = turn at hsteps ⊢
    obtain ⟨w', next, notes⟩ := turn
    cases hsteps <;> exact .refl _

end Run.Setup

namespace History

variable {h : History} {k handle : Nat} {job : Job} {pool : Pool Transfer}

/-- All of these are steps of tasks of run `k`, and nothing comes from outside. -/
def Inner (k : Nat) (as : List Action) : Prop :=
  ∀ a ∈ as, ∃ worker sig, a = .signal ⟨k, worker⟩ sig ∧ sig.isInner = true

/-- Steps of its own tasks lead a run that sends parts to the report of its workers. -/
def Drains (h : History) (k handle : Nat) (job : Job) : Prop :=
  ∃ more report, Inner k more ∧
    (h.after more).engine.runs[k]? = some ⟨handle, .closing job report⟩ ∧
    (h.after more).engine.world.isCancelled handle = false

/-- A step of a task of a run that sends parts, with nothing from outside. -/
theorem inner_next {s : Run.Setup} (hrun : h.engine.runs[k]? = some ⟨handle, .sending job pool⟩)
    (hs : Engine.setup? h.engine.world handle = some s)
    (hfree : h.engine.world.isCancelled handle = false) (worker : Option Nat) {sig : Signal}
    (hsig : sig.isInner = true) :
    let h' := h.next (.signal ⟨k, worker⟩ sig)
    h'.engine.runs[k]?
        = some ⟨handle, (s.turn h.engine.world false worker (.sending job pool) sig).stage⟩ ∧
      h'.engine.world.isCancelled handle = false := by
  obtain ⟨hworld, hruns, -⟩ := next_signal (t := ⟨k, worker⟩) hrun hs sig
  have hsame : Engine.effective false (.sending job pool) sig = sig := rfl
  rw [hfree, hsame, Signal.cancels_of_isInner hsig] at hworld hruns
  refine ⟨hruns, ?_⟩
  have hhandles := (s.same_sending h.engine.world false worker job pool sig).handles
  have hturn : (h.next (.signal ⟨k, worker⟩ sig)).engine.world.handles = h.engine.world.handles :=
    (congrArg World.handles hworld).trans hhandles
  rw [World.isCancelled, hturn]
  exact hfree

/-- Whatever state its workers are in and whatever the server leaves undone, a run that sends parts
and whose session is not cancelled can come to the report of its workers. -/
theorem drains (hin : h.InStep) (hrun : h.engine.runs[k]? = some ⟨handle, .sending job pool⟩)
    (hfree : h.engine.world.isCancelled handle = false) : h.Drains k handle job := by
  induction hn : job.weight pool using Nat.strongRecOn generalizing h pool with
  | _ n ih =>
    obtain ⟨s, off, hs, htrace, -⟩ : ∃ s off, Engine.setup? h.engine.world handle = some s ∧
        Trace s off (.sending job pool) (h.of k) ∧ _ :=
      (hin.follows k _ hrun).resolve_left fun hentering => Stage.noConfusion hentering.1
    have hpaced := htrace.tended s.tends_paced job pool rfl
    obtain ⟨worker, sig, hsig, hturn⟩ := Run.Setup.weight_turn (s := s) (w := h.engine.world)
      (htrace.staffed job pool rfl).fallen (fun i c t hi => (hpaced.uploading i c t hi).within)
      (by rw [Engine.setup?_handle hs]; exact hfree)
    obtain ⟨hruns, hstill⟩ := inner_next hrun hs hfree worker hsig
    have hinner : ∀ more, Inner k more → Inner k (.signal ⟨k, worker⟩ sig :: more) := by
      intro more hmore a ha
      rcases List.mem_cons.mp ha with rfl | ha
      · exact ⟨worker, sig, rfl, hsig⟩
      · exact hmore a ha
    rcases hturn with ⟨pool', hstage, hlt⟩ | hstage
    · rw [hstage] at hruns
      obtain ⟨more, report, hmore, hclosing, hoff⟩ :=
        ih _ (hn ▸ hlt) (hin.next _) hruns hstill rfl
      exact ⟨_ :: more, report, hinner more hmore, hclosing, hoff⟩
    · rw [hstage] at hruns
      exact ⟨[_], pool.result, hinner [] fun a ha => absurd ha List.not_mem_nil, hruns, hstill⟩

end History

end ResumableUpload.Session
