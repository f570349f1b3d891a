import ResumableUpload.Fault.Upload
import ResumableUpload.Proofs.Retry.Law

/-!
# The account of a retried call

Which attempts of a retried call have begun, and how those that are over ended, is written down in
an `Account`. Wherever a call stands, its account is known (`Account.Bears`): the attempts that
began are numbered from zero without gaps, and all that are over failed in a way that a retry may
mend, the last one of a call that has ended apart. So a call that has failed says how many attempts
began and how the last of them ended, and an upload that fails with it says the same
(`UploadFault.tells_of_bears`).
-/

namespace ResumableUpload

namespace Retry

/-- What a retried call has been through. -/
structure Account (α : Type) where
  -- the numbers of the attempts that began
  begun : List Nat := []
  -- the attempts that are over, each with its end
  past : List (Nat × Outcome α) := []

/-- The attempt that ends with a signal. -/
def Stage.ends : Stage → Signal α → List (Nat × Outcome α)
  | .attempting n, .outcome o => [(n, o)]
  | _, _ => []

namespace Account

/-- The account after a step of a call that is not cancelled. -/
def add (a : Account α) (stage : Stage) (s : Signal α) (after : Loop α) : Account α where
  begun := a.begun ++ ((Loop.active stage).deeds after).filterMap Deed.attempt?
  past := a.past ++ stage.ends s

variable {op : Operation}

/-- The first `n` attempts are over, and each failed in a way that a retry may mend. -/
structure Mended (op : Operation) (n : Nat) (past : List (Nat × Outcome α)) : Prop where
  numbers : past.map Prod.fst = List.range n
  faults : ∀ x ∈ past, ∃ f, x.2.fault? op = some f ∧ f.isRetriable = true

theorem mended_zero : Mended op 0 ([] : List (Nat × Outcome α)) :=
  ⟨rfl, fun _ hx => absurd hx List.not_mem_nil⟩

theorem Mended.succ {n : Nat} {past : List (Nat × Outcome α)} {o : Outcome α} {f : CallFault}
    (h : Mended op n past) (hf : o.fault? op = some f) (hr : f.isRetriable = true) :
    Mended op (n + 1) (past ++ [(n, o)]) where
  numbers := by rw [List.map_append, h.numbers, List.range_succ]; rfl
  faults x hx := by
    rcases List.mem_append.mp hx with hx | hx
    · exact h.faults x hx
    · rw [List.mem_singleton.mp hx]
      exact ⟨f, hf, hr⟩

/-- What a call has been through, by where it stands. A call that was cancelled may have stood
anywhere. -/
inductive Bears (op : Operation) : Loop α → Account α → Prop
  | ready {n : Nat} {past : List (Nat × Outcome α)} : n ≤ op.policy.maxRetries →
      Mended op n past → Bears op (.active (.ready n)) ⟨List.range n, past⟩
  | attempting {n : Nat} {past : List (Nat × Outcome α)} : n ≤ op.policy.maxRetries →
      Mended op n past → Bears op (.active (.attempting n)) ⟨List.range (n + 1), past⟩
  | pausing {n : Nat} {past : List (Nat × Outcome α)} (wait : Duration) :
      n < op.policy.maxRetries → Mended op (n + 1) past →
      Bears op (.active (.pausing n wait)) ⟨List.range (n + 1), past⟩
  | succeeded {n : Nat} {past : List (Nat × Outcome α)} (v : α) : Mended op n past →
      Bears op (.ended (.ok v)) ⟨List.range (n + 1), past ++ [(n, .value v)]⟩
  | failed {n : Nat} {past : List (Nat × Outcome α)} {o : Outcome α} {f : CallFault} :
      Mended op n past → o.fault? op = some f → n ≤ op.policy.maxRetries →
      (f.isRetriable = true → n = op.policy.maxRetries) →
      Bears op (.ended (.error (.after n f))) ⟨List.range (n + 1), past ++ [(n, o)]⟩
  | cancelled (a : Account α) : Bears op (.ended (.error .cancelled)) a

/-- A signal that does not fit the stage leaves the account as it was. -/
theorem add_of_stays {a : Account α} {stage : Stage} {s : Signal α} (h : stage.awaits s = false) :
    a.add stage s (.active stage) = a := by
  have hdeeds : (Loop.active stage : Loop α).deeds (.active stage) = [] := by cases stage <;> rfl
  have hends : stage.ends s = [] := by
    cases stage <;> cases s <;> first
      | rfl
      | cases h
  simp only [add, hdeeds, hends, List.filterMap_nil, List.append_nil]

theorem bears_start : Bears op (.start : Loop α) {} := .ready (Nat.zero_le _) mended_zero

/-- The attempt under way is the last that began. -/
theorem Bears.begun_of_attempting {n : Nat} {a : Account α}
    (h : Bears op (.active (.attempting n)) a) : a.begun = List.range (n + 1) := by
  cases h
  rfl

/-- A step of a call that is not cancelled keeps the account. -/
theorem Bears.goes {stage : Stage} {s : Signal α} {noise : Nat} {after : Loop α} {a : Account α}
    (h : Bears op (.active stage) a) (hgoes : Loop.Goes op noise stage s after) :
    Bears op after (a.add stage s after) := by
  cases hgoes with
  | begins n =>
    cases h with
    | ready hn hpast =>
      simp only [add, Loop.deeds, List.filterMap_cons, Deed.attempt?, List.filterMap_nil,
        Stage.ends, List.append_nil, ← List.range_succ]
      exact .attempting hn hpast
  | succeeds n v =>
    cases h with
    | attempting hn hpast =>
      simp only [add, Loop.deeds, List.filterMap_nil, List.append_nil, Stage.ends]
      exact .succeeded v hpast
  | fails n o f hf hr =>
    cases h with
    | attempting hn hpast =>
      have hafter : Failure.fatal (n + 1) f = .after n f := by simp [Failure.after, hr]
      simp only [add, Loop.deeds, List.filterMap_nil, List.append_nil, Stage.ends, hafter]
      refine .failed hpast hf hn fun hyes => ?_
      rw [hr] at hyes
      cases hyes
  | tires n o f hf hr hmax =>
    cases h with
    | attempting hn hpast =>
      have hafter : Failure.exhausted (n + 1) f = .after n f := by simp [Failure.after, hr]
      simp only [add, Loop.deeds, List.filterMap_nil, List.append_nil, Stage.ends, hafter]
      exact .failed hpast hf hn fun _ => Nat.le_antisymm hn hmax
  | pauses n o f hf hr hn =>
    cases h with
    | attempting _ hpast =>
      simp only [add, Loop.deeds, List.filterMap_cons, Deed.attempt?, List.filterMap_nil,
        List.append_nil, Stage.ends]
      exact .pausing _ hn (hpast.succ hf hr)
  | resumes n wait =>
    cases h with
    | pausing _ hn hpast =>
      simp only [add, Loop.deeds, List.filterMap_nil, List.append_nil, Stage.ends]
      exact .ready hn hpast
  | stays stage s hno =>
    rw [add_of_stays hno]
    exact h

/-! ### Calls that failed -/

/-- No retry is left: as many attempts began as the policy admits, and each of them failed in a way
that a retry may mend. -/
def Exhausted (op : Operation) (a : Account α) : Prop :=
  a.begun.length = op.policy.maxRetries + 1 ∧
    ∀ x ∈ a.past, ∃ f, x.2.fault? op = some f ∧ f.isRetriable = true

/-- An attempt failed in a way that no retry can mend. -/
def MetFatal (op : Operation) (a : Account α) : Prop :=
  ∃ x ∈ a.past, ∃ f, x.2.fault? op = some f ∧ f.isRetriable = false

/-- The account of a call that failed: the last attempt that began ended with a fault. -/
structure Fails (op : Operation) (a : Account α) (last : CallFault) : Prop where
  ending : ∃ n o, a.begun = List.range (n + 1) ∧ a.past.getLast? = some (n, o) ∧
    o.fault? op = some last
  within : a.begun.length ≤ op.policy.maxRetries + 1
  exhausted : last.isRetriable = true ↔ a.Exhausted op
  fatal : last.isRetriable = false ↔ a.MetFatal op

theorem fails_of_mended {n : Nat} {past : List (Nat × Outcome α)} {o : Outcome α} {f : CallFault}
    (hpast : Mended op n past) (hf : o.fault? op = some f) (hn : n ≤ op.policy.maxRetries)
    (hlast : f.isRetriable = true → n = op.policy.maxRetries) :
    Fails op ⟨List.range (n + 1), past ++ [(n, o)]⟩ f where
  ending := ⟨n, o, rfl, List.getLast?_concat, hf⟩
  within := by
    rw [List.length_range]
    exact Nat.succ_le_succ hn
  exhausted := by
    refine ⟨fun hr => ⟨?_, (hpast.succ hf hr).faults⟩, fun hall => ?_⟩
    · rw [List.length_range, hlast hr]
    · obtain ⟨g, hg, hr⟩ := hall.2 (n, o) (List.mem_append_right _ List.mem_cons_self)
      rwa [Option.some.inj (hf.symm.trans hg)]
  fatal := by
    refine ⟨fun hr => ⟨(n, o), List.mem_append_right _ List.mem_cons_self, f, hf, hr⟩, ?_⟩
    rintro ⟨x, hx, g, hg, hr⟩
    rcases List.mem_append.mp hx with hx | hx
    · -- the attempts before the last one failed otherwise
      obtain ⟨g', hg', hr'⟩ := hpast.faults x hx
      rw [Option.some.inj (hg.symm.trans hg'), hr'] at hr
      cases hr
    · rw [List.mem_singleton.mp hx] at hg
      rwa [Option.some.inj (hf.symm.trans hg)]

/-- A call that failed and was not cancelled says how many attempts began, and how the last of them
ended. -/
theorem Bears.fails {why : Failure} {a : Account α} (h : Bears op (.ended (.error why)) a)
    (hwhy : why ≠ .cancelled) :
    ∃ n last, why = .after n last ∧ a.begun.length = n + 1 ∧ a.Fails op last := by
  generalize hloop : Loop.ended (.error why) = loop at h
  cases h with
  | @failed n past o f hpast hf hn hlast =>
    injection hloop with hloop
    injection hloop with hloop
    exact ⟨n, f, hloop, List.length_range, fails_of_mended hpast hf hn hlast⟩
  | cancelled =>
    injection hloop with hloop
    injection hloop with hloop
    exact absurd hloop hwhy
  | _ => cases hloop

end Account

end Retry

namespace UploadFault

/-- The failure of an upload says what the last fault was: an address that is missing and a token
that was refused by themselves, and anything else with the number of attempts. -/
structure Says (f : UploadFault) (other : Nat → CallFault → UploadFault) (attempts : Nat)
    (last : CallFault) : Prop where
  unavailable : ∀ text,
    f = .endpointUnavailable text ↔ last.kind = .endpointUnavailable ∧ text = last.message
  refused : ∀ e, f = .authFailed e ↔ last.kind = .unauthorized ∧ e = last
  otherwise : ∀ n e, f = other n e ↔ last.kind ≠ .endpointUnavailable ∧
    last.kind ≠ .unauthorized ∧ n = attempts ∧ e = last

/-- The failure of a kind of its own that an upload with a retried call ends with. -/
structure IsOwn (other : Nat → CallFault → UploadFault) : Prop where
  injective : ∀ {m n e e'}, other m e = other n e' → m = n ∧ e = e'
  unavailable : ∀ {n e text}, other n e ≠ .endpointUnavailable text
  refused : ∀ {n e e'}, other n e ≠ .authFailed e'
  cancelled : ∀ {n e}, other n e ≠ .cancelled

theorem isOwn_initFailed : IsOwn initFailed where
  injective h := by injection h with hn he; exact ⟨hn, he⟩
  unavailable := nofun
  refused := nofun
  cancelled := nofun

theorem isOwn_chunkFailed (index : Nat) : IsOwn (chunkFailed index) where
  injective h := by injection h with _ hn he; exact ⟨hn, he⟩
  unavailable := nofun
  refused := nofun
  cancelled := nofun

theorem ofRetry_after (other : Nat → CallFault → UploadFault) (n : Nat) (last : CallFault) :
    ofRetry other (.after n last) = match last.kind with
      | .unauthorized => authFailed last
      | .endpointUnavailable => endpointUnavailable last.message
      | _ => other (n + 1) last := by
  unfold Retry.Failure.after
  split <;> rfl

/-- An upload whose retried call failed says how the call failed. -/
theorem says_ofRetry {other : Nat → CallFault → UploadFault} (hother : IsOwn other) (n : Nat)
    (last : CallFault) : (ofRetry other (.after n last)).Says other (n + 1) last := by
  rw [ofRetry_after]
  split
  · next hkind =>
    refine ⟨by simp [hkind], fun e => ?_, fun m e => ?_⟩
    · rw [authFailed.injEq]
      exact ⟨fun h => ⟨hkind, h.symm⟩, fun h => h.2.symm⟩
    · exact iff_of_false (Ne.symm hother.refused) fun h => h.2.1 hkind
  · next hkind =>
    refine ⟨fun text => ?_, by simp [hkind], fun m e => ?_⟩
    · rw [endpointUnavailable.injEq]
      exact ⟨fun h => ⟨hkind, h.symm⟩, fun h => h.2.symm⟩
    · exact iff_of_false (Ne.symm hother.unavailable) fun h => h.1 hkind
  · next hauth hmissing =>
    refine ⟨fun text => iff_of_false hother.unavailable fun h => hmissing h.1,
      fun e => iff_of_false hother.refused fun h => hauth h.1, fun m e => ⟨fun h => ?_, ?_⟩⟩
    · obtain ⟨hm, he⟩ := hother.injective h
      exact ⟨hmissing, hauth, hm.symm, he.symm⟩
    · rintro ⟨-, -, rfl, rfl⟩
      rfl

/-- The failure of an upload with a retried call: it counts as cancelled only if it was stopped, and
otherwise says how many attempts began and how the last of them ended. -/
structure Tells (f : UploadFault) (op : Retry.Operation) (other : Nat → CallFault → UploadFault)
    (a : Retry.Account α) (stopped : Prop) : Prop where
  cancelled : f = .cancelled → stopped
  failed : f ≠ .cancelled → ∃ last, a.Fails op last ∧ f.Says other a.begun.length last

/-- An upload whose retried call failed tells how. -/
theorem tells_of_bears {op : Retry.Operation} {other : Nat → CallFault → UploadFault}
    (hother : IsOwn other) {why : Retry.Failure} {a : Retry.Account α} {stopped : Prop}
    (h : Retry.Account.Bears op (.ended (.error why)) a) (hstopped : why = .cancelled → stopped) :
    (ofRetry other why).Tells op other a stopped := by
  by_cases hwhy : why = .cancelled
  · refine ⟨fun _ => hstopped hwhy, fun hne => ?_⟩
    rw [hwhy] at hne
    exact absurd rfl hne
  · obtain ⟨n, last, rfl, hlength, hfails⟩ := h.fails hwhy
    refine ⟨fun heq => ?_, fun _ => ⟨last, hfails, ?_⟩⟩
    · rw [ofRetry_after] at heq
      split at heq
      · cases heq
      · cases heq
      · exact absurd heq hother.cancelled
    · rw [hlength]
      exact says_ofRetry hother n last

/-- An upload that could not be announced may be started again exactly if no retry was left, and
not exactly if no retry could have mended the fault. -/
theorem Tells.restartable {op : Retry.Operation} {a : Retry.Account α} {stopped : Prop} {n : Nat}
    {e : CallFault} (h : (initFailed n e).Tells op initFailed a stopped) :
    ((initFailed n e).isRestartable = true ↔ a.Exhausted op) ∧
      ((initFailed n e).isRestartable = false ↔ a.MetFatal op) := by
  obtain ⟨last, hfails, htold⟩ := h.failed nofun
  obtain ⟨-, -, -, rfl⟩ := (htold.otherwise n e).mp rfl
  exact ⟨hfails.exhausted, hfails.fatal⟩

end UploadFault

end ResumableUpload
