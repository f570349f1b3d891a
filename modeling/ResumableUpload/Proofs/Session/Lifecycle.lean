import Mathlib.Data.List.Infix
import ResumableUpload.Proofs.Session.States

/-!
# The way of a session

The state of a session changes only with steps of the one run that found it ready, and the stage of
this run shows it (`History.Stands`). So the states that a session goes through, whatever else
happens and whoever cancels, are the first part of one way and one end at most (`states_lawful`).
-/

namespace ResumableUpload.Session

/-! ## The sessions of a history -/

namespace History

variable {h : History} {handle k : Nat}

/-- The state of a session. -/
def stateOf? (h : History) (handle : Nat) : Option State := h.engine.world.stateOf? handle

/-- The states that a session goes through while the actions happen. -/
def states (h : History) (handle : Nat) (as : List Action) : List State :=
  (as.inits.filterMap fun done => (h.after done).stateOf? handle).foldl State.note []

/-- A session leaves its first state for a run that found it ready, and is in the state that the
stage of this run shows. -/
structure Stands (h : History) : Prop where
  taken : ∀ {handle : Nat} {st : State}, h.stateOf? handle = some st → st ≠ .created →
    ∃ k, h.Admitted handle k
  shows : ∀ {handle k : Nat} {r : Run}, h.Admitted handle k → h.engine.runs[k]? = some r →
    ∃ st, h.stateOf? handle = some st ∧ r.stage.Shows st

/-- A run that found its session ready takes a step. -/
structure Moved (h h' : History) (handle k : Nat) (r r' : Run) (st st' : State) : Prop where
  admitted : h'.Admitted handle k
  run : h.engine.runs[k]? = some r ∧ r.handle = handle
  before : h.stateOf? handle = some st
  now : h'.stateOf? handle = some st'
  stride : Stride r.stage st r'.stage st'

theorem stateOf?_cancelAll (h : History) (is : List Nat) (i : Nat) :
    (h.engine.world.cancelAll is).1.stateOf? i = h.stateOf? i :=
  World.stateOf?_of_states (World.states_cancelAll _ is) i

theorem runs_next_signal {t : Task} {sig : Signal} {r : Run} {s : Run.Setup}
    (hr : h.engine.runs[t.run]? = some r)
    (hs : Engine.setup? h.engine.world r.handle = some s) :
    let cancelled := h.engine.world.isCancelled r.handle
    let sig' := Engine.effective cancelled r.stage sig
    let turn := s.turn (h.engine.world.cancelAll sig'.cancels).1 cancelled t.worker r.stage sig'
    (h.next (.signal t sig)).engine.runs[t.run]? = some { r with stage := turn.stage } := by
  intro cancelled sig' turn
  have heng : (h.next (.signal t sig)).engine = _ := Engine.signal_eq sig hr hs
  have hlt : t.run < h.engine.runs.length := (List.getElem?_eq_some_iff.mp hr).1
  rw [heng]
  exact List.getElem?_set_self hlt

variable {t : Task} {sig : Signal} {r : Run} {s : Run.Setup}

/-- A step of a run whose stage shows the state of its session. -/
theorem moved_of_shows (hr : h.engine.runs[t.run]? = some r)
    (hs : Engine.setup? h.engine.world r.handle = some s) {st : State}
    (hadmitted : (h.next (.signal t sig)).Admitted r.handle t.run)
    (hst : h.stateOf? r.handle = some st) (hshows : r.stage.Shows st) :
    ∃ r' st', (h.next (.signal t sig)).engine.runs[t.run]? = some r' ∧
      h.Moved (h.next (.signal t sig)) r.handle t.run r r' st st' := by
  have heng : (h.next (.signal t sig)).engine = _ := Engine.signal_eq sig hr hs
  have hhandle : s.handle = r.handle := Engine.setup?_handle hs
  let cancelled := h.engine.world.isCancelled r.handle
  let sig' := Engine.effective cancelled r.stage sig
  have hfound : (h.engine.world.cancelAll sig'.cancels).1.stateOf? s.handle = some st := by
    rw [hhandle, stateOf?_cancelAll, hst]
  obtain ⟨st', hnow, hstride⟩ :=
    s.strides_turn cancelled sig' t.worker hfound hshows
  refine ⟨_, st', runs_next_signal hr hs, hadmitted, ⟨hr, rfl⟩, hst, ?_, hstride⟩
  rw [hhandle] at hnow
  rw [stateOf?, heng]
  exact hnow

/-- The task of a run that found its session ready moves the session as the stages of the run show;
a run that did not find it ready moves nothing. -/
theorem moved_signal (sig : Signal) (hin : h.InStep) (hstands : h.Stands)
    (hr : h.engine.runs[t.run]? = some r)
    (hs : Engine.setup? h.engine.world r.handle = some s) :
    (∃ r' st st', (h.next (.signal t sig)).engine.runs[t.run]? = some r' ∧
      h.Moved (h.next (.signal t sig)) r.handle t.run r r' st st') ∨
    (¬ (h.next (.signal t sig)).Admitted r.handle t.run ∧
      ∀ i, (h.next (.signal t sig)).stateOf? i = h.stateOf? i) := by
  have hrun : h.IsRunOf r.handle t.run := by rw [IsRunOf, hr]; rfl
  have hrun' : (h.next (.signal t sig)).IsRunOf r.handle t.run := by
    rw [IsRunOf, runs_next_signal hr hs]; rfl
  have hof := of_next_signal h t sig t.run
  rw [if_pos rfl, Engine.events_eq sig hr hs] at hof
  by_cases hnew : .entered .created ∈ (h.next (.signal t sig)).of t.run
  · have hshows : ∃ st, h.stateOf? r.handle = some st ∧ r.stage.Shows st := by
      rw [hof] at hnew
      rcases List.mem_append.mp hnew with hmem | hmem
      · exact hstands.shows ⟨hrun, hmem⟩ hr
      · -- the run takes its first step, and finds its session ready
        obtain ⟨-, hstage, -, hd, hhd, hc⟩ := Run.Setup.entered_of_events hmem
        refine ⟨.created, ?_, by rw [hstage]; rfl⟩
        rw [← Engine.setup?_handle hs, ← stateOf?_cancelAll h, World.stateOf?, hhd,
          Option.map_some, hc]
    obtain ⟨st, hst, hstage⟩ := hshows
    obtain ⟨r', st', hmoved⟩ := moved_of_shows hr hs ⟨hrun', hnew⟩ hst hstage
    exact .inl ⟨r', st, st', hmoved⟩
  · have hno : .entered .created ∉ h.of t.run := by
      rw [hof] at hnew
      exact fun hmem => hnew (List.mem_append_left _ hmem)
    obtain ⟨r', hr', hout⟩ := outside_of_not_admitted hin hrun hno
    obtain ⟨-, hstates⟩ := next_of_outside t.worker hr' hout hnew
    exact .inr ⟨fun hadmitted => hnew hadmitted.2, World.stateOf?_of_states hstates⟩

/-- Signals to a run leave the sessions of other runs as they are. -/
theorem stateOf?_signal_ne (hr : h.engine.runs[t.run]? = some r)
    (hs : Engine.setup? h.engine.world r.handle = some s) {i : Nat} (hi : r.handle ≠ i) :
    (h.next (.signal t sig)).stateOf? i = h.stateOf? i := by
  have heng : (h.next (.signal t sig)).engine = _ := Engine.signal_eq sig hr hs
  have hhandle : s.handle = r.handle := Engine.setup?_handle hs
  rw [stateOf?, heng]
  exact (s.stateOf?_turn_ne _ _ _ _ _ (hhandle ▸ hi)).trans (stateOf?_cancelAll h _ i)

/-- Workers leave the state of their session as it is. -/
theorem stateOf?_signal_worker (hr : h.engine.runs[t.run]? = some r)
    (hs : Engine.setup? h.engine.world r.handle = some s) (hworker : t.worker ≠ none) (i : Nat) :
    (h.next (.signal t sig)).stateOf? i = h.stateOf? i := by
  have heng : (h.next (.signal t sig)).engine = _ := Engine.signal_eq sig hr hs
  obtain ⟨j, hj⟩ := Option.ne_none_iff_exists'.mp hworker
  rw [stateOf?, heng]
  simp only [hj]
  exact (World.stateOf?_of_handles (s.same_worker _ _ j _ _).handles i).trans
    (stateOf?_cancelAll h _ i)

/-- What is no step of a task changes the state of no session that is there. -/
theorem stateOf?_next_other {a : Action} (ha : ∀ t sig, a ≠ .signal t sig) (i : Nat) :
    (h.next a).stateOf? i = h.stateOf? i ∨
      h.stateOf? i = none ∧ (h.next a).stateOf? i = some .created := by
  cases a with
  | signal t sig => exact absurd rfl (ha t sig)
  | start id uploader target =>
    have hhandles : (h.next (.start id uploader target)).engine.world.handles
        = h.engine.world.handles ++ [⟨id, target, uploader, .created, false⟩] := rfl
    simp only [stateOf?, World.stateOf?, hhandles]
    by_cases hlt : i < h.engine.world.handles.length
    · exact .inl (by rw [List.getElem?_append_left hlt])
    · have hnone : h.engine.world.handles[i]? = none := List.getElem?_eq_none_iff.mpr (by omega)
      rw [List.getElem?_append_right (by omega), List.getElem?_singleton, hnone]
      split
      · exact .inr ⟨rfl, rfl⟩
      · exact .inl rfl
  | cancel handle => exact .inl (stateOf?_cancelAll h [handle] i)
  | addSharingUploader settings other =>
    refine .inl (World.stateOf?_of_handles ?_ i)
    simp only [next, Engine.act, Engine.addSharingUploader]
    split <;> rfl
  | invalidate resolver =>
    exact .inl (World.stateOf?_of_handles (World.same_withResolver _ resolver _).handles i)
  | age resolver nanos =>
    exact .inl (World.stateOf?_of_handles (World.same_withResolver _ resolver _).handles i)
  | reload path =>
    refine .inl (World.stateOf?_of_handles ?_ i)
    simp only [next, Engine.act, Engine.withWorld, World.reload]
    split
    · rfl
    · split <;> rfl
  | _ => exact .inl rfl

/-- A step of a task of a run. -/
theorem next_signal (hr : h.engine.runs[t.run]? = some r)
    (hs : Engine.setup? h.engine.world r.handle = some s) (sig : Signal) :
    let cancelled := h.engine.world.isCancelled r.handle
    let sig' := Engine.effective cancelled r.stage sig
    let w := (h.engine.world.cancelAll sig'.cancels).1
    let turn := s.turn w cancelled t.worker r.stage sig'
    (h.next (.signal t sig)).engine.world = turn.world ∧
      (h.next (.signal t sig)).engine.runs[t.run]? = some { r with stage := turn.stage } ∧
      (h.next (.signal t sig)).of t.run
        = h.of t.run ++ s.events w cancelled t.worker r.stage sig' := by
  have heng : (h.next (.signal t sig)).engine = _ := Engine.signal_eq sig hr hs
  refine ⟨by rw [heng], runs_next_signal hr hs, ?_⟩
  rw [of_next_signal, if_pos rfl, Engine.events_eq sig hr hs]

/-- A run changes with steps of its own tasks only. -/
theorem next_cases (h : History) (a : Action) (hr : h.engine.runs[k]? = some r) :
    ((h.next a).engine.runs[k]? = some r ∧ (h.next a).of k = h.of k) ∨
      ∃ worker sig s, a = .signal ⟨k, worker⟩ sig ∧
        Engine.setup? h.engine.world r.handle = some s := by
  by_cases ha : ∃ t sig, a = .signal t sig
  · obtain ⟨t, sig, rfl⟩ := ha
    rcases h.engine.signal_cases t sig with ⟨hsame, hnone⟩ | ⟨old, s, hold, hs⟩
    · have heng : (h.next (.signal t sig)).engine = h.engine := hsame
      exact .inl ⟨heng ▸ hr, by rw [of_next_signal, hnone, ite_self, List.append_nil]⟩
    · by_cases hk : t.run = k
      · subst hk
        obtain rfl : old = r := Option.some.inj (hold.symm.trans hr)
        exact .inr ⟨t.worker, sig, s, rfl, hs⟩
      · have heng : (h.next (.signal t sig)).engine = _ := Engine.signal_eq sig hold hs
        refine .inl ⟨?_, by rw [of_next_signal, if_neg hk, List.append_nil]⟩
        rw [heng]
        exact (List.getElem?_set_ne hk).trans hr
  · have hother : ∀ t sig, a ≠ .signal t sig := fun t sig heq => ha ⟨t, sig, heq⟩
    refine .inl ⟨?_, of_next_other h hother k⟩
    rcases Engine.runs_act (e := h.engine) hother with hruns | ⟨new, hruns⟩
    · exact (congrArg (·[k]?) hruns).trans hr
    · have hlt : k < h.engine.runs.length := (List.getElem?_eq_some_iff.mp hr).1
      exact (congrArg (·[k]?) hruns).trans ((List.getElem?_append_left hlt).trans hr)

/-- Runs stay runs of their sessions. -/
theorem runs_next (h : History) (a : Action) (hr : h.engine.runs[k]? = some r) :
    ∃ r', (h.next a).engine.runs[k]? = some r' ∧ r'.handle = r.handle ∧
      ((∃ worker sig, a = .signal ⟨k, worker⟩ sig) ∨ r' = r) := by
  rcases next_cases h a hr with ⟨hsame, -⟩ | ⟨worker, sig, s, rfl, hs⟩
  · exact ⟨r, hsame, rfl, .inr rfl⟩
  · exact ⟨_, (next_signal (t := ⟨k, worker⟩) hr hs sig).2.1, rfl, .inl ⟨worker, sig, rfl⟩⟩

/-- A run of which nothing is known has not taken its first step. -/
theorem entering_of_silent (hin : h.InStep) {r : Run} (hr : h.engine.runs[k]? = some r)
    (hnil : h.of k = []) : r.stage = .entering := by
  rcases hin.follows k r hr with ⟨hstage, -⟩ | ⟨s, off, -, htrace, -⟩
  · exact hstage
  · rw [hnil] at htrace
    rcases htrace.course.reached with (⟨hstage, -⟩ | ⟨found, _, -, hevs, -⟩) | hreached
    · exact hstage
    · cases hevs
    · cases hreached.entered

theorem InStep.next (hin : h.InStep) (a : Action) : (h.next a).InStep := by
  cases a with
  | signal t sig => exact hin.next_signal t sig
  | _ => exact hin.next_other (by simp)

/-- A run that is added has not taken its first step. -/
theorem begun_next (hin : h.InStep) (a : Action) (hnone : h.engine.runs[k]? = none) {r' : Run}
    (hr' : (h.next a).engine.runs[k]? = some r') :
    r'.stage = .entering ∧ (h.next a).of k = [] := by
  have hrun : (h.next a).IsRunOf r'.handle k := by rw [IsRunOf, hr']; rfl
  rcases isRunOf_of_next hin hrun with hold | hnil
  · rw [IsRunOf, hnone] at hold
    cases hold
  · exact ⟨entering_of_silent (hin.next a) hr' hnil, hnil⟩

/-- What a run goes by stays the same. -/
theorem setup?_next (hs : h.setup? k = some s) (a : Action) : (h.next a).setup? k = some s := by
  obtain ⟨r, hr, hs⟩ := Option.bind_eq_some_iff.mp hs
  obtain ⟨r', hr', hhandle, -⟩ := runs_next h a hr
  rw [setup?, hr']
  show Engine.setup? (h.next a).engine.world r'.handle = some s
  rw [hhandle]
  exact (h.engine.later_act a).setup? hs

theorem setup?_after (hs : h.setup? k = some s) (as : List Action) :
    (h.after as).setup? k = some s :=
  induct (P := fun h' => h'.setup? k = some s) hs (fun _ a hdone => setup?_next hdone a) as

/-- Events of a run stay in the journal. -/
theorem of_after (h : History) (as : List Action) (k : Nat) : h.of k <+: (h.after as).of k := by
  refine induct (P := fun h' => h.of k <+: h'.of k) (List.prefix_refl _) (fun done a hle => ?_) as
  refine hle.trans ?_
  rw [of, of, next, List.filterMap_append]
  exact List.prefix_append _ _

theorem InStep.after (hin : h.InStep) (as : List Action) : (h.after as).InStep :=
  induct (P := InStep) hin (fun _ a hin => hin.next a) as

theorem Admitted.next (hadmitted : h.Admitted handle k) (a : Action) :
    (h.next a).Admitted handle k := by
  obtain ⟨hrun, hmem⟩ := hadmitted
  obtain ⟨r, hr, hhandle⟩ := Option.map_eq_some_iff.mp hrun
  obtain ⟨r', hr', hhandle', -⟩ := runs_next h a hr
  refine ⟨?_, mem_of.mpr (List.mem_append_left _ (mem_of.mp hmem))⟩
  rw [IsRunOf, hr', Option.map_some, hhandle', hhandle]

/-- How the state of a session changes with an action, if it does. -/
theorem moved_next (hin : h.InStep) (hstands : h.Stands) (a : Action) (handle : Nat) :
    (h.next a).stateOf? handle = h.stateOf? handle ∨
    (h.stateOf? handle = none ∧ (h.next a).stateOf? handle = some .created) ∨
    ∃ k sig r r' st st', a = .signal ⟨k, none⟩ sig ∧ h.Moved (h.next a) handle k r r' st st' := by
  by_cases ha : ∃ t sig, a = .signal t sig
  · obtain ⟨t, sig, rfl⟩ := ha
    rcases h.engine.signal_cases t sig with ⟨hsame, -⟩ | ⟨r, s, hr, hs⟩
    · have heng : (h.next (.signal t sig)).engine = h.engine := hsame
      exact .inl (by rw [stateOf?, heng]; rfl)
    · by_cases hhandle : r.handle = handle
      · subst hhandle
        obtain ⟨k, worker⟩ := t
        cases worker with
        | some i => exact .inl (stateOf?_signal_worker hr hs (Option.some_ne_none i) _)
        | none =>
          rcases moved_signal sig hin hstands hr hs with
            ⟨r', st, st', -, hmoved⟩ | ⟨-, hsame⟩
          · exact .inr (.inr ⟨k, sig, r, r', st, st', rfl, hmoved⟩)
          · exact .inl (hsame _)
      · exact .inl (stateOf?_signal_ne hr hs hhandle)
  · rcases stateOf?_next_other (h := h) (fun t sig heq => ha ⟨t, sig, heq⟩) handle with hsame | hnew
    · exact .inl hsame
    · exact .inr (.inl hnew)

/-- After a step of a run that found its session ready its stage shows the state. -/
theorem Stands.shows_signal (hstands : h.Stands) (hin : h.InStep) {r' : Run}
    (hadmitted : (h.next (.signal t sig)).Admitted handle t.run)
    (hr' : (h.next (.signal t sig)).engine.runs[t.run]? = some r') :
    ∃ st, (h.next (.signal t sig)).stateOf? handle = some st ∧ r'.stage.Shows st := by
  rcases h.engine.signal_cases t sig with ⟨hsame, hnone⟩ | ⟨r, s, hr, hs⟩
  · have heng : (h.next (.signal t sig)).engine = h.engine := hsame
    obtain ⟨hrun, hmem⟩ := hadmitted
    rw [of_next_signal, hnone, ite_self, List.append_nil] at hmem
    rw [IsRunOf, heng] at hrun
    rw [heng] at hr'
    rw [stateOf?, heng]
    exact hstands.shows ⟨hrun, hmem⟩ hr'
  · obtain rfl : r.handle = handle := by
      have hrun := hadmitted.1
      rw [IsRunOf, runs_next_signal hr hs] at hrun
      exact Option.some.inj hrun
    rcases moved_signal sig hin hstands hr hs with
      ⟨next, st, st', hnext, hmoved⟩ | ⟨hno, -⟩
    · obtain rfl : next = r' := Option.some.inj (hnext.symm.trans hr')
      exact ⟨st', hmoved.now, hmoved.stride.shows⟩
    · exact absurd hadmitted hno

theorem Stands.next (hstands : h.Stands) (hin : h.InStep) (hlocked : h.Locked) (a : Action) :
    (h.next a).Stands where
  taken hst hne := by
    rcases moved_next hin hstands a _ with hsame | ⟨-, hnew⟩ | ⟨k, _, _, _, _, _, -, hmoved⟩
    · obtain ⟨k, hk⟩ := hstands.taken (hsame.symm.trans hst) hne
      exact ⟨k, hk.next a⟩
    · exact absurd (Option.some.inj (hst.symm.trans hnew)) hne
    · exact ⟨k, hmoved.admitted⟩
  shows := by
    intro handle k r' hadmitted hr'
    by_cases hself : ∃ worker sig, a = .signal ⟨k, worker⟩ sig
    · obtain ⟨worker, sig, rfl⟩ := hself
      exact hstands.shows_signal hin hadmitted hr'
    · have hold : h.Admitted handle k := by
        rcases admitted_next hin hadmitted with hold | ⟨⟨t, sig, rfl, rfl⟩, -, -⟩
        · exact hold
        · exact absurd ⟨t.worker, sig, rfl⟩ hself
      obtain ⟨r, hr, -⟩ := Option.map_eq_some_iff.mp hold.1
      obtain ⟨next, hnext, -, hstep | rfl⟩ := runs_next h a hr
      · exact absurd hstep hself
      · obtain rfl : next = r' := Option.some.inj (hnext.symm.trans hr')
        obtain ⟨st, hst, hshows⟩ := hstands.shows hold hr
        rcases moved_next hin hstands a handle with
          hsame | ⟨hnone, -⟩ | ⟨j, sig, _, _, _, _, ha, hmoved⟩
        · exact ⟨st, hsame.trans hst, hshows⟩
        · rw [hnone] at hst
          cases hst
        · -- no other run found the session ready
          obtain rfl : j = k := (hlocked.next hin a).unique hmoved.admitted hadmitted
          exact absurd ⟨none, sig, ha⟩ hself

theorem stands (w : World) (as : List Action) :
    ((start { w with handles := [] }).after as).Stands := by
  refine induct (P := Stands) ?_ ?_ as
  · constructor
    · intro handle st hst
      cases hst
    · rintro handle k r ⟨-, hmem⟩
      cases hmem
  · intro done a hstands
    exact hstands.next (inStep _ done) (locked _ done) a

/-! ## The states that a session goes through -/

theorem states_concat (h : History) (handle : Nat) (as : List Action) (a : Action) :
    h.states handle (as ++ [a])
      = ((h.after as).next a |>.stateOf? handle).toList.foldl State.note (h.states handle as) := by
  have hinits : (as ++ [a]).inits = as.inits ++ [as ++ [a]] := List.inits_append as [a]
  rw [states, states, hinits, List.filterMap_append, List.foldl_append, ← after_concat]
  cases hst : (h.after (as ++ [a])).stateOf? handle with
  | none => simp only [List.filterMap_cons, List.filterMap_nil, hst]; rfl
  | some st => simp only [List.filterMap_cons, List.filterMap_nil, hst]; rfl

/-- The states noted are those on a path to the state of the session. -/
theorem noted_states (w : World) (as : List Action) (handle : Nat) :
    State.Noted ((start { w with handles := [] }).states handle as)
      (((start { w with handles := [] }).after as).stateOf? handle) := by
  induction as using List.reverseRecOn with
  | nil => exact rfl
  | append_singleton as a ih =>
    rw [after_concat, states_concat]
    rcases moved_next (inStep _ as) (stands w as) a handle with
      hsame | ⟨hnone, hnew⟩ | ⟨k, sig, r, r', st, st', -, hmoved⟩
    · rw [hsame]
      exact ih.again
    · rw [hnone] at ih
      rw [hnew]
      exact ih.begins
    · rw [hmoved.before] at ih
      rw [hmoved.now]
      rcases hmoved.stride.leads with rfl | hleads
      · exact ih.again
      · exact ih.leads hleads

/-- A session that has come to an end stays there. -/
theorem stateOf?_after_terminal (w : World) (as more : List Action) {st : State}
    (hst : ((start { w with handles := [] }).after as).stateOf? handle = some st)
    (hterm : st.isTerminal = true) :
    ((start { w with handles := [] }).after (as ++ more)).stateOf? handle = some st := by
  induction more using List.reverseRecOn with
  | nil => rwa [List.append_nil]
  | append_singleton more a ih =>
    rw [← List.append_assoc, after_concat]
    rcases moved_next (inStep _ (as ++ more)) (stands w (as ++ more)) a handle with
      hsame | ⟨hnone, -⟩ | ⟨k, sig, r, r', before, st', -, hmoved⟩
    · exact hsame.trans ih
    · rw [hnone] at ih
      cases ih
    · obtain rfl : before = st := Option.some.inj (hmoved.before.symm.trans ih)
      rcases hmoved.stride.leads with rfl | hleads
      · exact hmoved.now
      · rw [hleads.not_terminal] at hterm
        cases hterm

/-- What has happened in a run that commits its session. -/
theorem commits_of_moved (hin : h.InStep) {h' : History} {r' : Run} {st : State}
    (hmoved : h.Moved h' handle k r r' st .committed) (hst : st ≠ .committed) :
    Commits (h.of k) st := by
  obtain ⟨c, hstage, rfl⟩ := hmoved.stride.committed hst
  rcases hin.follows k r hmoved.run.1 with ⟨hnew, -⟩ | ⟨s, off, -, htrace, -⟩
  · rw [hnew] at hstage
    cases hstage
  · have hcourse := htrace.course
    rw [hstage] at hcourse
    exact Run.Setup.Outcome.commits hcourse

/-- The states that a session goes through are the first part of the way and one end at most, which
it does not leave. It gets from one state to another with steps of the one run that found it ready,
to `committed` after the parts were joined or when the server had the content; cancelling sessions
changes no state. When the run has a result, the session is in the state that the result says. -/
theorem states_lawful (w : World) (as : List Action) (handle : Nat) :
    let first := start { w with handles := [] }
    let h := first.after as
    (∀ st, h.stateOf? handle = some st →
      State.Lawful (first.states handle as) ∧ (first.states handle as).getLast? = some st ∧
      (st.isTerminal = true → ∀ more, (h.after more).stateOf? handle = some st)) ∧
    (∀ a st st', h.stateOf? handle = some st → (h.next a).stateOf? handle = some st' → st' ≠ st →
      ∃ k sig, a = .signal ⟨k, none⟩ sig ∧ (h.next a).Admitted handle k ∧
        (st' = .committed → Commits (h.of k) st)) ∧
    (∀ cancels, (h.engine.world.cancelAll cancels).1.stateOf? handle = h.stateOf? handle) ∧
    ∀ k result, h.Admitted handle k → h.engine.ending? k = some (.result result) →
      h.stateOf? handle = some (.ofResult result) := by
  intro first h
  have hin : h.InStep := inStep _ as
  have hstands : h.Stands := stands w as
  refine ⟨fun st hst => ?_, fun a st st' hst hst' hne => ?_, fun cancels => ?_, ?_⟩
  · have hpath : State.Noted (first.states handle as) (h.stateOf? handle) :=
      noted_states w as handle
    rw [hst] at hpath
    refine ⟨hpath.lawful, hpath.getLast?, fun hterm more => ?_⟩
    rw [← after_append]
    exact stateOf?_after_terminal w as more hst hterm
  · rcases moved_next hin hstands a handle with
      hsame | ⟨hnone, -⟩ | ⟨k, sig, r, r', before, now, ha, hmoved⟩
    · rw [hsame, hst] at hst'
      exact absurd (Option.some.inj hst').symm hne
    · rw [hnone] at hst
      cases hst
    · obtain rfl : before = st := Option.some.inj (hmoved.before.symm.trans hst)
      obtain rfl : now = st' := Option.some.inj (hmoved.now.symm.trans hst')
      refine ⟨k, sig, ha, hmoved.admitted, ?_⟩
      rintro rfl
      exact commits_of_moved hin hmoved hne.symm
  · exact stateOf?_cancelAll h cancels handle
  · intro k result hadmitted hending
    obtain ⟨r, hr, -⟩ := Option.map_eq_some_iff.mp hadmitted.1
    obtain ⟨st, hst, hshows⟩ := hstands.shows hadmitted hr
    obtain ⟨of, stage⟩ := r
    rw [Engine.ending?, hr] at hending
    cases stage with
    | ended found =>
      obtain rfl : found = result := by simpa using hending
      exact hst.trans (congrArg some hshows)
    | _ => cases hending

/-- A session whose parts are joined goes the whole way. -/
example : (start Sample.Pair.world).states 0 Sample.Pair.committed
    = [.created, .preparing, .uploading, .finalizing, .committed] := by decide +kernel

end History

end ResumableUpload.Session
