import ResumableUpload.Proofs.Session.Frame

/-!
# One run of a history

What a run goes through is told by its own steps alone (`Trace`): whatever else happens to the
engine between two of them shows in the world that the next step finds, of which nothing is assumed
but that a cancelled session stays cancelled. Every run of a history is such a trace, with the
events that the journal has for it (`History.trace`), so what holds of all traces holds of all runs
of all histories.
-/

namespace ResumableUpload.Session

/-- What a run can go through. The first argument says whether the session was cancelled when the
run took its last step. -/
inductive Trace (s : Run.Setup) : Bool → Stage → List Event → Prop
  | start : Trace s false .entering []
  | turn {off : Bool} {stage : Stage} {evs : List Event} (w : World) (cancelled : Bool)
      (worker : Option Nat) (signal : Signal) :
      Trace s off stage evs → (off = true → cancelled = true) →
      (cancelled = true → w.isCancelled s.handle = true) →
      Trace s (w.isCancelled s.handle)
        (s.turn w cancelled worker stage (Engine.effective cancelled stage signal)).stage
        (evs ++ s.events w cancelled worker stage (Engine.effective cancelled stage signal))

/-- The events of a run are those of a trace to its stage; a run of a session that is not there has
not begun. -/
def Run.Follows (w : World) (r : Run) (evs : List Event) : Prop :=
  (r.stage = .entering ∧ evs = []) ∨
    ∃ s off, Engine.setup? w r.handle = some s ∧ Trace s off r.stage evs ∧
      (off = true → w.isCancelled r.handle = true)

theorem Engine.setup?_handle {w : World} {i : Nat} {s : Run.Setup} (h : setup? w i = some s) :
    s.handle = i := by
  simp only [setup?, Option.bind_eq_bind, Option.bind_eq_some_iff, Option.pure_def,
    Option.some.injEq] at h
  obtain ⟨_, -, _, -, rfl⟩ := h
  rfl

theorem Run.Follows.later {w w' : World} {r : Run} {evs : List Event} (h : r.Follows w evs)
    (hw : w.Later w') : r.Follows w' evs := by
  rcases h with hnew | ⟨s, off, hs, htrace, hoff⟩
  · exact .inl hnew
  · exact .inr ⟨s, off, hw.setup? hs, htrace, fun ho => hw.isCancelled (hoff ho)⟩

/-- The trace of a run, once it is known what the run goes by. -/
theorem Run.Follows.trace {w : World} {r : Run} {evs : List Event} {s : Run.Setup}
    (h : r.Follows w evs) (hs : Engine.setup? w r.handle = some s) :
    ∃ off, Trace s off r.stage evs ∧ (off = true → w.isCancelled r.handle = true) := by
  rcases h with ⟨hstage, hevs⟩ | ⟨s', off, hs', htrace, hoff⟩
  · rw [hstage, hevs]
    exact ⟨false, .start, Bool.noConfusion⟩
  · have heq : s' = s := Option.some.inj (hs'.symm.trans hs)
    exact ⟨off, heq ▸ htrace, hoff⟩

/-- A step of a task brings the trace of its run one step further. -/
theorem Run.Follows.turn {w : World} {r : Run} {evs : List Event} {s : Run.Setup}
    (h : r.Follows w evs) (hs : Engine.setup? w r.handle = some s) (worker : Option Nat)
    (signal : Signal) :
    let cancelled := w.isCancelled r.handle
    let sig := Engine.effective cancelled r.stage signal
    let next := s.turn (w.cancelAll sig.cancels).1 cancelled worker r.stage sig
    Run.Follows next.world { r with stage := next.stage }
      (evs ++ s.events (w.cancelAll sig.cancels).1 cancelled worker r.stage sig) := by
  intro cancelled sig next
  obtain ⟨off, htrace, hoff⟩ := h.trace hs
  have hcancelled := Engine.setup?_handle hs
  have hbefore : w.Later (w.cancelAll sig.cancels).1 := World.later_cancelAll w sig.cancels
  have hafter : (w.cancelAll sig.cancels).1.Later next.world :=
    s.later_turn (w.cancelAll sig.cancels).1 cancelled worker r.stage sig
  refine .inr ⟨s, _, (hbefore.trans hafter).setup? hs, .turn _ _ worker signal htrace hoff ?_, ?_⟩
  · intro hc
    rw [hcancelled]
    exact hbefore.isCancelled hc
  · intro hc
    rw [hcancelled] at hc
    exact hafter.isCancelled hc

/-! ## One action -/

namespace Engine

variable {e : Engine}

/-- A step of a task of a run that knows what it goes by. -/
theorem signal_eq {t : Task} {r : Run} {s : Run.Setup} (sig : Signal)
    (hr : e.runs[t.run]? = some r) (hs : setup? e.world r.handle = some s) :
    (e.signal t sig).1 =
      let cancelled := e.world.isCancelled r.handle
      let sig := effective cancelled r.stage sig
      let turn := s.turn (e.world.cancelAll sig.cancels).1 cancelled t.worker r.stage sig
      { world := turn.world, runs := e.runs.set t.run { r with stage := turn.stage } } := by
  cases hworker : t.worker with
  | none => simp only [signal, hr, hs, Run.Setup.turn, hworker]
  | some i => simp only [signal, hr, hs, Run.Setup.turn, hworker]

theorem events_eq {t : Task} {r : Run} {s : Run.Setup} (sig : Signal)
    (hr : e.runs[t.run]? = some r) (hs : setup? e.world r.handle = some s) :
    e.events t sig =
      let cancelled := e.world.isCancelled r.handle
      let sig := effective cancelled r.stage sig
      s.events (e.world.cancelAll sig.cancels).1 cancelled t.worker r.stage sig := by
  simp only [events, hr, hs]

/-- A signal reaches no task, or brings the run of its task one step further. -/
theorem signal_cases (e : Engine) (t : Task) (sig : Signal) :
    ((e.signal t sig).1 = e ∧ e.events t sig = []) ∨
      ∃ r s, e.runs[t.run]? = some r ∧ setup? e.world r.handle = some s := by
  cases hr : e.runs[t.run]? with
  | none => exact .inl (by simp only [signal, events, hr, and_self])
  | some r =>
    cases hs : setup? e.world r.handle with
    | none => exact .inl (by simp only [signal, events, hr, hs, and_self])
    | some s => exact .inr ⟨r, s, rfl, hs⟩

/-- Other actions add a run at most. -/
theorem runs_act {a : Action} (ha : ∀ t sig, a ≠ .signal t sig) :
    (e.act a).runs = e.runs ∨ ∃ handle, (e.act a).runs = e.runs ++ [⟨handle, .entering⟩] := by
  cases a with
  | signal t sig => exact absurd rfl (ha t sig)
  | run handle => exact .inr ⟨handle, rfl⟩
  | addSharingUploader settings other =>
    refine .inl ?_
    simp only [act, addSharingUploader]
    split <;> rfl
  | _ => exact .inl rfl

end Engine

/-! ## All actions -/

namespace History

/-- Every run is in step with its events. -/
structure InStep (h : History) : Prop where
  follows : ∀ (k : Nat) (r : Run), h.engine.runs[k]? = some r → r.Follows h.engine.world (h.of k)
  absent : ∀ k : Nat, h.engine.runs[k]? = none → h.of k = []

variable {h : History}

theorem InStep.next_signal (hin : h.InStep) (t : Task) (sig : Signal) :
    (h.next (.signal t sig)).InStep := by
  have hof := of_next_signal h t sig
  have hw : h.engine.world.Later (h.next (.signal t sig)).engine.world :=
    h.engine.later_act (.signal t sig)
  rcases h.engine.signal_cases t sig with ⟨hsame, hnone⟩ | ⟨r, s, hr, hs⟩
  · have heng : (h.next (.signal t sig)).engine = h.engine := hsame
    have hof' : ∀ k, (h.next (.signal t sig)).of k = h.of k := by
      intro k
      rw [hof, hnone, ite_self, List.append_nil]
    refine ⟨fun k r hr => ?_, fun k hk => ?_⟩
    · rw [heng] at hr ⊢
      rw [hof']
      exact hin.follows k r hr
    · rw [heng] at hk
      rw [hof']
      exact hin.absent k hk
  · have heng : (h.next (.signal t sig)).engine = _ := Engine.signal_eq sig hr hs
    have hlt : t.run < h.engine.runs.length := (List.getElem?_eq_some_iff.mp hr).1
    refine ⟨fun k r' hr' => ?_, fun k hk => ?_⟩
    · by_cases hk : t.run = k
      · subst hk
        rw [heng] at hr'
        simp only [List.getElem?_set_self hlt, Option.some.injEq] at hr'
        subst hr'
        rw [hof, if_pos rfl, Engine.events_eq sig hr hs, heng]
        exact (hin.follows _ r hr).turn hs t.worker sig
      · have hold : h.engine.runs[k]? = some r' := by
          rw [heng] at hr'
          simpa only [List.getElem?_set_ne hk] using hr'
        rw [hof, if_neg hk, List.append_nil]
        exact (hin.follows k r' hold).later hw
    · have hne : t.run ≠ k := by
        intro hk'
        rw [heng, List.getElem?_eq_none_iff, List.length_set] at hk
        omega
      have hold : h.engine.runs[k]? = none := by
        rw [heng] at hk
        simpa only [List.getElem?_set_ne hne] using hk
      rw [hof, if_neg hne, List.append_nil]
      exact hin.absent k hold

theorem of_next_other (h : History) {a : Action} (ha : ∀ t sig, a ≠ .signal t sig) (k : Nat) :
    (h.next a).of k = h.of k := by
  rw [of, of, journal_next_other h ha]

theorem InStep.next_other (hin : h.InStep) {a : Action} (ha : ∀ t sig, a ≠ .signal t sig) :
    (h.next a).InStep := by
  have hw : h.engine.world.Later (h.next a).engine.world := h.engine.later_act a
  have hof := of_next_other h ha
  rcases Engine.runs_act (e := h.engine) ha with hruns | ⟨handle, hruns⟩
  · have hruns' : (h.next a).engine.runs = h.engine.runs := hruns
    refine ⟨fun k r hr => ?_, fun k hk => ?_⟩
    · rw [hof]
      exact (hin.follows k r (hruns' ▸ hr)).later hw
    · rw [hof]
      exact hin.absent k (hruns' ▸ hk)
  · have hruns' : (h.next a).engine.runs = h.engine.runs ++ [⟨handle, .entering⟩] := hruns
    refine ⟨fun k r hr => ?_, fun k hk => ?_⟩
    · rw [hof]
      rw [hruns'] at hr
      by_cases hlt : k < h.engine.runs.length
      · rw [List.getElem?_append_left hlt] at hr
        exact (hin.follows k r hr).later hw
      · have hnew : h.of k = [] := hin.absent k (List.getElem?_eq_none_iff.mpr (by omega))
        rw [List.getElem?_append_right (by omega)] at hr
        have hstage : r.stage = .entering := by
          rw [List.getElem?_singleton] at hr
          split at hr
          · rw [← Option.some.inj hr]
          · cases hr
        exact .inl ⟨hstage, hnew⟩
    · rw [hof]
      rw [hruns', List.getElem?_eq_none_iff, List.length_append] at hk
      exact hin.absent k (List.getElem?_eq_none_iff.mpr (by omega))

theorem inStep (w : World) (as : List Action) : ((start w).after as).InStep := by
  refine induct (P := InStep) ?_ ?_ as
  · exact ⟨fun k r hr => absurd hr (by simp [start]), fun k _ => rfl⟩
  · intro done a hin
    cases a with
    | signal t sig => exact hin.next_signal t sig
    | _ => exact hin.next_other (by simp)

/-- What a run of a history goes by. -/
def setup? (h : History) (run : Nat) : Option Run.Setup := do
  let r ← h.engine.runs[run]?
  Engine.setup? h.engine.world r.handle

/-- Every run of a history is a trace with the events that the journal has for the run. -/
theorem trace (w : World) (as : List Action) {k : Nat} {r : Run} {s : Run.Setup}
    (hr : ((start w).after as).engine.runs[k]? = some r)
    (hs : Engine.setup? ((start w).after as).engine.world r.handle = some s) :
    ∃ off, Trace s off r.stage (((start w).after as).of k) ∧
      (off = true → ((start w).after as).engine.world.isCancelled r.handle = true) :=
  ((inStep w as).follows k r hr).trace hs

end History

end ResumableUpload.Session
