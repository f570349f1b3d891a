import ResumableUpload.Proofs.Session.Reached

/-!
# A session is run once

The first run that finds its session ready takes it (`History.Locked`); every other run of
the session is turned away and leaves no trace. A run joins the parts at most once, and not at all
if something speaks against it (`Run.Setup.Course.create`). So the parts of a session are joined at
most once, whatever runs there are and in whatever order they take their steps
(`create_once`).
-/

namespace ResumableUpload.Session

/-- The event speaks against joining the parts: a part or a worker came to grief, the server had the
content already, or the token was found withdrawn at the last look. -/
def Event.forbids : Event → Bool
  | .partFailed .. | .partInterrupted _ | .workerFell _ => true
  | .answered _ (.precreate ..) (.precreate r) => r.isRapid
  | .checked cancelled => cancelled
  | _ => false

namespace Run.Setup

variable {s : Setup} {d : Digest.FileDigests} {o : Origin} {evs : List Event} {off : Bool}
  {stage : Stage}

/-! ## Runs that were turned away -/

theorem Unopened.entered (h : s.Unopened evs) : .entered .created ∈ evs := by
  cases h with
  | begun => exact List.mem_cons_self
  | digested _ => exact List.mem_cons_self
  | sought _ => exact List.mem_append_left _ List.mem_cons_self

theorem Opened.entered (h : s.Opened d o evs) : .entered .created ∈ evs := by
  cases h with
  | taken _ _ => exact List.mem_cons_self
  | issued _ _ => exact List.mem_append_left _ (List.mem_append_left _ List.mem_cons_self)

theorem Located.entered (h : s.Located d o evs) : .entered .created ∈ evs := by
  obtain ⟨hopened, -⟩ := h
  exact List.mem_append_left _ hopened.entered

theorem Finished.entered (h : s.Finished d o evs) : .entered .created ∈ evs := by
  obtain ⟨hlocated, -⟩ := h
  rw [List.append_assoc]
  exact List.mem_append_left _ hlocated.entered

theorem Joining.entered (h : s.Joining d o evs) : .entered .created ∈ evs := by
  obtain ⟨hfinished⟩ := h
  exact List.mem_append_left _ hfinished.entered

theorem Reached.entered (h : s.Reached evs) : .entered .created ∈ evs := by
  cases h with
  | unopened hunopened => exact hunopened.entered
  | rapid _ => exact List.mem_append_left _ (List.mem_append_left _ List.mem_cons_self)
  | located hlocated _ _ =>
    rw [List.append_assoc]
    exact List.mem_append_left _ hlocated.entered
  | joining hjoining _ => exact List.mem_append_left _ hjoining.entered

/-- A run that did not find its session ready has not begun, or it was told so and ended. -/
theorem Course.refused (h : s.Course off stage evs) (hno : .entered .created ∉ evs) :
    Outside stage evs := by
  rcases h.reached with houtside | hreached
  · exact houtside
  · exact absurd hreached.entered hno

/-! ## Joining the parts -/

theorem Early.not_forbids {x : Event} (h : s.Early d x) : x.forbids = false := by
  cases h with
  | @answered r hr =>
    cases r with
    | precreate reply => exact hr reply rfl
    | _ => rfl
  | _ => rfl

theorem not_forbids_of_works {job : Job} {x : Event} (h : Works job x)
    (hsound : x.isTrouble = false) : x.forbids = false := by
  cases h with
  | partFailed _ _ => cases hsound
  | partInterrupted _ => cases hsound
  | workerFell _ => cases hsound
  | _ => rfl

/-- Nothing speaks against joining the parts before a run does so. -/
theorem Finished.not_forbids (h : s.Finished d o evs) : ∀ x ∈ evs, x.forbids = false := by
  obtain ⟨hlocated, hcomplete⟩ := h
  intro x hx
  rw [List.mem_append, List.mem_append] at hx
  rcases hx with (hx | hx) | hx
  · exact (hlocated.early x hx).not_forbids
  · exact not_forbids_of_works (hcomplete.works x hx) (hcomplete.sound x hx)
  · rw [List.mem_singleton.mp hx]
    rfl

/-- The parts were joined once, and nothing speaks against it. -/
structure JoinedOnce (evs : List Event) : Prop where
  once : evs.countP Event.isCreate = 1
  allowed : ∀ x ∈ evs, x.forbids = false

theorem JoinedOnce.append {a b : List Event} (ha : JoinedOnce a) (hb : Unjoined b)
    (hallowed : ∀ x ∈ b, x.forbids = false) : JoinedOnce (a ++ b) where
  once := by rw [List.countP_append, ha.once, hb.countP]
  allowed x hx := (List.mem_append.mp hx).elim (ha.allowed x) (hallowed x)

theorem Joining.joinedOnce (h : s.Joining d o evs) : JoinedOnce evs := by
  obtain ⟨hfinished⟩ := h
  constructor
  · rw [List.countP_append, hfinished.unjoined.countP]
    rfl
  · intro x hx
    rcases List.mem_append.mp hx with hx | hx
    · exact hfinished.not_forbids x hx
    · rw [List.mem_cons, List.mem_singleton] at hx
      rcases hx with rfl | rfl <;> rfl

/-- The parts are joined with one request, and what follows it asks for nothing. -/
theorem Reached.create (h : s.Reached evs) : Unjoined evs ∨ JoinedOnce evs := by
  cases h with
  | unopened hunopened => exact .inl hunopened.unjoined
  | rapid hsought =>
    refine .inl (Unjoined.append ?_ (unjoined_singleton rfl))
    intro x hx
    exact (hsought.early x hx).not_create
  | located hlocated hworks hweighs =>
    refine .inl ((hlocated.unjoined.append fun x hx => ?_).append fun x hx => ?_)
    · exact not_create_of_works (hworks x hx)
    · cases hweighs x hx <;> rfl
  | joining hjoining hsettles =>
    refine .inr (hjoining.joinedOnce.append (fun x hx => ?_) fun x hx => ?_)
    · cases hsettles x hx <;> rfl
    · cases hsettles x hx <;> rfl

/-- A run joins the parts at most once, and not at all if something speaks against it. -/
theorem Course.create (h : s.Course off stage evs) : Unjoined evs ∨ JoinedOnce evs := by
  rcases h.reached with (⟨-, rfl⟩ | ⟨found, _, -, rfl, -⟩) | hreached
  · exact .inl fun x hx => absurd hx List.not_mem_nil
  · exact .inl (unjoined_singleton rfl)
  · exact hreached.create

/-! ## Asking for the session -/

variable {w : World} {cancelled : Bool} {worker : Option Nat} {sig : Signal}

/-- A run asks for its session with its first step only. -/
theorem entered_of_events {found : State}
    (h : .entered found ∈ s.events w cancelled worker stage sig) :
    worker = none ∧ stage = .entering ∧ sig = .go ∧
      ∃ hd, w.handles[s.handle]? = some hd ∧ hd.state = found := by
  cases arises_of_events h with
  | entered hhd => exact ⟨rfl, rfl, rfl, _, hhd, rfl⟩

/-- A run that finds its session ready takes it. -/
theorem turn_admitted {hd : Handle} (hh : w.handles[s.handle]? = some hd)
    (hc : hd.state = .created) :
    (s.turn w cancelled none .entering .go).world
      = { w with handles := w.handles.set s.handle { hd with state := .preparing } } := by
  simp only [turn, main, enter, hh, if_pos hc]

/-- A run that is not let in leaves everything as it is. -/
theorem turn_refused (hstage : stage = .entering ∨ ∃ result, stage = .ended result)
    (hno : .entered .created ∉ s.events w cancelled worker stage sig) :
    (s.turn w cancelled worker stage sig).world = w := by
  cases worker with
  | some i => rcases hstage with rfl | ⟨result, rfl⟩ <;> rfl
  | none =>
    rcases hstage with rfl | ⟨result, rfl⟩
    · cases sig with
      | go =>
        cases hh : w.handles[s.handle]? with
        | none => simp only [turn, main, enter, hh]
        | some hd =>
          by_cases hc : hd.state = .created
          · refine absurd ?_ hno
            simp [events, changes, deeds, hh, hc]
          · simp only [turn, main, enter, hh, if_neg hc]
      | _ => rfl
    · cases sig <;> rfl

end Run.Setup

/-! ## All runs of a session -/

theorem World.states_cancelAll (w : World) (is : List Nat) :
    (w.cancelAll is).1.handles.map Handle.state = w.handles.map Handle.state := by
  induction is generalizing w with
  | nil => rfl
  | cons i rest ih =>
    refine (ih (w.cancel i).1).trans ?_
    unfold cancel withHandle
    cases hi : w.handles[i]? with
    | none => rfl
    | some hd =>
      have hstate : hd.cancel.1.state = hd.state := by
        unfold Handle.cancel
        split <;> rfl
      obtain ⟨hlt, hget⟩ := List.getElem?_eq_some_iff.mp hi
      have hlt' : i < (w.handles.map Handle.state).length := by rwa [List.length_map]
      have hget' : (w.handles.map Handle.state)[i] = hd.state := by rw [List.getElem_map, hget]
      show (w.handles.set i hd.cancel.1).map Handle.state = _
      rw [List.map_set, hstate, ← hget']
      exact List.set_getElem_self hlt'

namespace History

variable {h : History} {handle j k : Nat}

/-- The run is one of this session. -/
def IsRunOf (h : History) (handle run : Nat) : Prop :=
  h.engine.runs[run]?.map Run.handle = some handle

/-- The run is one of this session, and found it ready. -/
def Admitted (h : History) (handle run : Nat) : Prop :=
  h.IsRunOf handle run ∧ .entered .created ∈ h.of run

instance (h : History) (handle run : Nat) : Decidable (h.IsRunOf handle run) :=
  inferInstanceAs (Decidable (_ = _))

/-- The events of all runs of a session. -/
def ofHandle (h : History) (handle : Nat) : List Event :=
  h.journal.filterMap fun x => if h.IsRunOf handle x.run then some x.event else none

theorem mem_ofHandle {x : Event} :
    x ∈ h.ofHandle handle ↔ ∃ run, h.IsRunOf handle run ∧ x ∈ h.of run := by
  rw [ofHandle, List.mem_filterMap]
  constructor
  · rintro ⟨⟨run, event⟩, hmem, heq⟩
    simp only [Option.ite_none_right_eq_some, Option.some.injEq] at heq
    obtain ⟨hrun, rfl⟩ := heq
    exact ⟨run, hrun, mem_of.mpr hmem⟩
  · rintro ⟨run, hrun, hmem⟩
    exact ⟨⟨run, x⟩, mem_of.mp hmem, if_pos hrun⟩

/-- A session that some run found ready is not ready any more, and no other run found it so. -/
structure Locked (h : History) : Prop where
  begun : ∀ {handle k : Nat}, h.Admitted handle k →
    ∃ hd, h.engine.world.handles[handle]? = some hd ∧ hd.state ≠ .created
  unique : ∀ {handle j k : Nat}, h.Admitted handle j → h.Admitted handle k → j = k

/-- The runs of a session stay its runs; the ones that are added have not begun. -/
theorem isRunOf_of_next (hin : h.InStep) {a : Action} (hrun : (h.next a).IsRunOf handle k) :
    h.IsRunOf handle k ∨ (h.next a).of k = [] := by
  by_cases ha : ∃ t sig, a = .signal t sig
  · obtain ⟨t, sig, rfl⟩ := ha
    refine .inl ?_
    rcases h.engine.signal_cases t sig with ⟨hsame, -⟩ | ⟨r, s, hr, hs⟩
    · have heng : (h.next (.signal t sig)).engine = h.engine := hsame
      rwa [IsRunOf, heng] at hrun
    · have heng : (h.next (.signal t sig)).engine = _ := Engine.signal_eq sig hr hs
      rw [IsRunOf, heng] at hrun
      by_cases hk : t.run = k
      · subst hk
        rw [IsRunOf, hr]
        have hlt : t.run < h.engine.runs.length := (List.getElem?_eq_some_iff.mp hr).1
        simpa only [List.getElem?_set_self hlt, Option.map_some] using hrun
      · simpa only [IsRunOf, List.getElem?_set_ne hk] using hrun
  · have hother : ∀ t sig, a ≠ .signal t sig := fun t sig heq => ha ⟨t, sig, heq⟩
    rw [of_next_other h hother]
    cases hold : h.engine.runs[k]? with
    | none => exact .inr (hin.absent k hold)
    | some r =>
      refine .inl ?_
      have hlt : k < h.engine.runs.length := (List.getElem?_eq_some_iff.mp hold).1
      rcases Engine.runs_act (e := h.engine) hother with hruns | ⟨new, hruns⟩
      · have hruns' : (h.next a).engine.runs = h.engine.runs := hruns
        rwa [IsRunOf, hruns'] at hrun
      · have hruns' : (h.next a).engine.runs = h.engine.runs ++ [⟨new, .entering⟩] := hruns
        rwa [IsRunOf, hruns', List.getElem?_append_left hlt] at hrun

/-- A run that is let in by an action takes its first step, and takes the session. -/
theorem admitted_next (hin : h.InStep) {a : Action} (hnext : (h.next a).Admitted handle k) :
    h.Admitted handle k ∨ (∃ t sig, a = .signal t sig ∧ t.run = k) ∧
      (∃ hd, h.engine.world.handles[handle]? = some hd ∧ hd.state = .created) ∧
      ∃ hd, (h.next a).engine.world.handles[handle]? = some hd ∧ hd.state ≠ .created := by
  obtain ⟨hrun, hmem⟩ := hnext
  have hrun' : h.IsRunOf handle k := by
    rcases isRunOf_of_next hin hrun with hold | hnil
    · exact hold
    · rw [hnil] at hmem
      cases hmem
  by_cases ha : ∃ t sig, a = .signal t sig
  · obtain ⟨t, sig, rfl⟩ := ha
    rw [of_next_signal] at hmem
    rcases List.mem_append.mp hmem with hold | hnew
    · exact .inl ⟨hrun', hold⟩
    · split at hnew
      · next hk =>
        rcases h.engine.signal_cases t sig with ⟨-, hnone⟩ | ⟨r, s, hr, hs⟩
        · rw [hnone] at hnew
          cases hnew
        · have heng : (h.next (.signal t sig)).engine = _ := Engine.signal_eq sig hr hs
          have hhandle : r.handle = handle := by
            rw [IsRunOf, ← hk, hr] at hrun'
            exact Option.some.inj hrun'
          have hs' : s.handle = handle := (Engine.setup?_handle hs).trans hhandle
          rw [Engine.events_eq sig hr hs] at hnew
          obtain ⟨hworker, hstage, hsig, hd, hhd, hc⟩ := Run.Setup.entered_of_events hnew
          rw [hstage] at hsig
          simp only [hworker, hstage, hsig] at heng hhd
          have hlt : handle < h.engine.world.handles.length := by
            rw [← hs']
            exact (List.getElem?_eq_some_iff.mp hhd).1
          refine .inr ⟨⟨t, sig, rfl, hk⟩, ⟨hd, hs' ▸ hhd, hc⟩,
            { hd with state := .preparing }, ?_, ?_⟩
          · rw [heng, Run.Setup.turn_admitted hhd hc, hs']
            exact List.getElem?_set_self hlt
          · exact State.noConfusion
      · cases hnew
  · rw [of_next_other h fun t sig heq => ha ⟨t, sig, heq⟩] at hmem
    exact .inl ⟨hrun', hmem⟩

theorem Locked.next (hlocked : h.Locked) (hin : h.InStep) (a : Action) : (h.next a).Locked where
  begun hadmitted := by
    rcases admitted_next hin hadmitted with hold | ⟨-, -, hnew⟩
    · obtain ⟨hd, hhd, hstate⟩ := hlocked.begun hold
      obtain ⟨hd', hhd', hbecomes⟩ := (h.engine.later_act a).handles _ hd hhd
      exact ⟨hd', hhd', hbecomes.begun hstate⟩
    · exact hnew
  unique hj hk := by
    -- a run that is let in now finds the session as no earlier one has left it
    rcases admitted_next hin hj with hj | ⟨⟨t, sig, ha, htj⟩, ⟨hd, hhd, hready⟩, -⟩
    · rcases admitted_next hin hk with hk | ⟨-, ⟨hd, hhd, hready⟩, -⟩
      · exact hlocked.unique hj hk
      · obtain ⟨hd', hhd', hstate⟩ := hlocked.begun hj
        rw [hhd] at hhd'
        exact absurd (Option.some.inj hhd' ▸ hready) hstate
    · rcases admitted_next hin hk with hk | ⟨⟨t', sig', ha', htk⟩, -, -⟩
      · obtain ⟨hd', hhd', hstate⟩ := hlocked.begun hk
        rw [hhd] at hhd'
        exact absurd (Option.some.inj hhd' ▸ hready) hstate
      · rw [ha] at ha'
        injection ha' with ht _
        rw [← htj, ← htk, ht]

theorem locked (w : World) (as : List Action) : ((start w).after as).Locked := by
  refine induct (P := Locked) ?_ ?_ as
  · constructor
    · rintro handle k ⟨-, hmem⟩
      cases hmem
    · rintro handle j k ⟨-, hmem⟩
      cases hmem
  · intro done a hlocked
    exact hlocked.next (inStep w done) a

/-- What has happened in a run of a session. -/
theorem course (hin : h.InStep) (hrun : h.IsRunOf handle k) :
    ∃ r, h.engine.runs[k]? = some r ∧ r.handle = handle ∧
      ((r.stage = .entering ∧ h.of k = []) ∨ ∃ (s : Run.Setup) (off : Bool),
        s.Course off r.stage (h.of k)) := by
  obtain ⟨r, hr, hhandle⟩ := Option.map_eq_some_iff.mp hrun
  refine ⟨r, hr, hhandle, ?_⟩
  rcases hin.follows k r hr with hnew | ⟨s, off, -, htrace, -⟩
  · exact .inl hnew
  · exact .inr ⟨s, off, htrace.course⟩

/-- A run that did not find its session ready. -/
structure Refused (h : History) (run : Nat) : Prop where
  -- it has not begun, or it found the session in another state and ended with that
  told : (h.of run = [] ∧ h.engine.ending? run = none) ∨ ∃ found detail, found ≠ .created ∧
    h.of run = [.entered found] ∧
    h.engine.ending? run = some (.result (.error (.invalidState detail)))
  -- its first step ends it if the session is in another state
  ends : ∀ s hd, h.of run = [] → h.setup? run = some s →
    h.engine.world.handles[s.handle]? = some hd → hd.state ≠ .created →
    (h.next (.signal ⟨run, none⟩ .go)).engine.ending? run
      = some (.result (.error (.invalidState hd.runAgainFault)))
  -- a step of it that does not let it in changes neither the store nor the state of a session
  idle : ∀ worker sig, .entered .created ∉ (h.next (.signal ⟨run, worker⟩ sig)).of run →
    (h.next (.signal ⟨run, worker⟩ sig)).engine.world.store = h.engine.world.store ∧
    (h.next (.signal ⟨run, worker⟩ sig)).engine.world.handles.map Handle.state
      = h.engine.world.handles.map Handle.state

theorem outside_of_not_admitted (hin : h.InStep) (hrun : h.IsRunOf handle k)
    (hno : .entered .created ∉ h.of k) :
    ∃ r, h.engine.runs[k]? = some r ∧ Outside r.stage (h.of k) := by
  obtain ⟨r, hr, -, hcourse⟩ := course hin hrun
  refine ⟨r, hr, ?_⟩
  rcases hcourse with hnew | ⟨s, off, hcourse⟩
  · exact .inl hnew
  · exact hcourse.refused hno

variable {r : Run}

theorem told_of_outside (hr : h.engine.runs[k]? = some r) (hout : Outside r.stage (h.of k)) :
    (h.of k = [] ∧ h.engine.ending? k = none) ∨ ∃ found detail, found ≠ .created ∧
      h.of k = [.entered found] ∧
      h.engine.ending? k = some (.result (.error (.invalidState detail))) := by
  obtain ⟨handle, stage⟩ := r
  rcases hout with ⟨hstage, hnil⟩ | ⟨found, detail, hfound, hevs, hstage⟩
  · refine .inl ⟨hnil, ?_⟩
    rw [Engine.ending?, hr, show stage = .entering from hstage]
  · refine .inr ⟨found, detail, hfound, hevs, ?_⟩
    rw [Engine.ending?, hr, show stage = .ended _ from hstage]

/-- The first step of a run that finds its session in another state ends it. -/
theorem ending_of_entering {s : Run.Setup} {hd : Handle} (hr : h.engine.runs[k]? = some r)
    (hstage : r.stage = .entering) (hs : Engine.setup? h.engine.world r.handle = some s)
    (hhd : h.engine.world.handles[s.handle]? = some hd) (hstate : hd.state ≠ .created) :
    (h.next (.signal ⟨k, none⟩ .go)).engine.ending? k
      = some (.result (.error (.invalidState hd.runAgainFault))) := by
  have heng : (h.next (.signal ⟨k, none⟩ .go)).engine = _ :=
    Engine.signal_eq (t := ⟨k, none⟩) .go hr hs
  have hgo : Engine.effective (h.engine.world.isCancelled r.handle) .entering .go = .go := by
    unfold Engine.effective
    split <;> rfl
  have hlt : k < h.engine.runs.length := (List.getElem?_eq_some_iff.mp hr).1
  have hturn : (s.turn h.engine.world (h.engine.world.isCancelled r.handle) none .entering
      .go).stage = .ended (.error (.invalidState hd.runAgainFault)) := by
    simp only [Run.Setup.turn, Run.Setup.main, Run.Setup.enter, hhd, if_neg hstate]
  simp only [hstage, hgo] at heng
  rw [Engine.ending?, heng]
  simp only [List.getElem?_set_self hlt]
  rw [show (h.engine.world.cancelAll Signal.go.cancels).1 = h.engine.world from rfl, hturn]

/-- Outside its session a run changes nothing of what sessions share. -/
theorem next_of_outside (worker : Option Nat) {sig : Signal} (hr : h.engine.runs[k]? = some r)
    (hout : Outside r.stage (h.of k))
    (hno : .entered .created ∉ (h.next (.signal ⟨k, worker⟩ sig)).of k) :
    (h.next (.signal ⟨k, worker⟩ sig)).engine.world.store = h.engine.world.store ∧
      (h.next (.signal ⟨k, worker⟩ sig)).engine.world.handles.map Handle.state
        = h.engine.world.handles.map Handle.state := by
  rcases h.engine.signal_cases ⟨k, worker⟩ sig with ⟨hsame, -⟩ | ⟨r', s, hr', hs⟩
  · have heng : (h.next (.signal ⟨k, worker⟩ sig)).engine = h.engine := hsame
    rw [heng]
    exact ⟨rfl, rfl⟩
  · have heng : (h.next (.signal ⟨k, worker⟩ sig)).engine = _ := Engine.signal_eq sig hr' hs
    have hrr : r' = r := Option.some.inj (hr'.symm.trans hr)
    subst hrr
    rw [of_next_signal, if_pos rfl, Engine.events_eq sig hr' hs] at hno
    have hidle : r'.stage = .entering ∨ ∃ result, r'.stage = .ended result := by
      rcases hout with ⟨hstage, -⟩ | ⟨_, _, -, -, hstage⟩
      · exact .inl hstage
      · exact .inr ⟨_, hstage⟩
    have hsame := Run.Setup.turn_refused hidle fun hin => hno (List.mem_append_right _ hin)
    rw [heng]
    dsimp only
    rw [hsame]
    exact ⟨World.store_cancelAll _ _, World.states_cancelAll _ _⟩

theorem refused_of_not_admitted (hin : h.InStep) (hrun : h.IsRunOf handle k)
    (hno : ¬ h.Admitted handle k) : h.Refused k := by
  have hmem : .entered .created ∉ h.of k := fun hmem => hno ⟨hrun, hmem⟩
  obtain ⟨r, hr, hout⟩ := outside_of_not_admitted hin hrun hmem
  refine ⟨told_of_outside hr hout, fun s hd hnil hs hhd hstate => ?_,
    fun worker sig => next_of_outside worker hr hout⟩
  have hstage : r.stage = .entering := by
    rcases hout with ⟨hstage, -⟩ | ⟨_, _, -, hevs, -⟩
    · exact hstage
    · rw [hnil] at hevs
      cases hevs
  simp only [setup?, hr] at hs
  exact ending_of_entering hr hstage hs hhd hstate

/-- Whatever else happens in a run, the run found its session ready. -/
theorem admitted_of_mem (hin : h.InStep) (hrun : h.IsRunOf handle k) {x : Event}
    (hx : x ∈ h.of k) (hother : ∀ found, x ≠ .entered found) : h.Admitted handle k := by
  by_cases hno : .entered .created ∈ h.of k
  · exact ⟨hrun, hno⟩
  · obtain ⟨r, -, ⟨-, hnil⟩ | ⟨found, detail, -, hevs, -⟩⟩ := outside_of_not_admitted hin hrun hno
    · rw [hnil] at hx
      cases hx
    · rw [hevs] at hx
      exact absurd (List.mem_singleton.mp hx) (hother found)

theorem admitted_of_create (hin : h.InStep) (hrun : h.IsRunOf handle k) {x : Event}
    (hx : x ∈ h.of k) (hcreate : x.isCreate = true) : h.Admitted handle k := by
  apply admitted_of_mem hin hrun hx
  intro found heq
  rw [heq] at hcreate
  cases hcreate

theorem admitted_of_forbids (hin : h.InStep) (hrun : h.IsRunOf handle k) {x : Event}
    (hx : x ∈ h.of k) (hforbids : x.forbids = true) : h.Admitted handle k := by
  apply admitted_of_mem hin hrun hx
  intro found heq
  rw [heq] at hforbids
  cases hforbids

/-- A run of a history joins the parts at most once, and not at all if something forbids it. -/
theorem create_of_run (hin : h.InStep) (hrun : h.IsRunOf handle k) :
    Run.Setup.Unjoined (h.of k) ∨ Run.Setup.JoinedOnce (h.of k) := by
  obtain ⟨r, -, -, ⟨-, hnil⟩ | ⟨s, off, hcourse⟩⟩ := course hin hrun
  · rw [hnil]
    exact .inl fun x hx => absurd hx List.not_mem_nil
  · exact hcourse.create

/-- Where one run only joins the parts, the count for the session is that for the run. -/
theorem countP_ofHandle (hrun : h.IsRunOf handle k)
    (honly : ∀ j, h.IsRunOf handle j → j ≠ k → Run.Setup.Unjoined (h.of j)) :
    (h.ofHandle handle).countP Event.isCreate = (h.of k).countP Event.isCreate := by
  rw [ofHandle, of, List.countP_filterMap, List.countP_filterMap]
  apply List.countP_congr
  intro x hx
  by_cases hk : x.run = k
  · rw [if_pos hk, if_pos (hk ▸ hrun)]
  · rw [if_neg hk]
    by_cases hj : h.IsRunOf handle x.run
    · have hno : x.event.isCreate = false := honly x.run hj hk x.event (mem_of.mpr hx)
      simp [hj, hno]
    · simp [hj]

/-- The parts of a session are joined at most once, whatever runs there are of it: also when the
request has failed or passed its limit, it is not made again. They are not joined at all if
something forbids it. One run at most finds the session ready; every other is refused. -/
theorem create_once (w : World) (as : List Action) (handle : Nat) :
    let h := (start w).after as
    (h.ofHandle handle).countP Event.isCreate ≤ 1 ∧
      ((∃ x ∈ h.ofHandle handle, x.forbids = true) →
        ∀ x ∈ h.ofHandle handle, x.isCreate = false) ∧
      (∀ j k, h.Admitted handle j → h.Admitted handle k → j = k) ∧
      ∀ k, h.IsRunOf handle k → ¬ h.Admitted handle k → h.Refused k := by
  intro h
  have hin : h.InStep := inStep w as
  have hlocked : h.Locked := locked w as
  refine ⟨?_, ?_, fun j k => hlocked.unique, fun k hrun => refused_of_not_admitted hin hrun⟩
  · by_cases hsome : ∃ k, h.Admitted handle k
    · obtain ⟨k, hk⟩ := hsome
      have honly : ∀ j, h.IsRunOf handle j → j ≠ k → Run.Setup.Unjoined (h.of j) := by
        intro j hj hne x hx
        cases hcreate : x.isCreate with
        | false => rfl
        | true => exact absurd (hlocked.unique (admitted_of_create hin hj hx hcreate) hk) hne
      rw [countP_ofHandle hk.1 honly]
      rcases create_of_run hin hk.1 with hnone | honce
      · rw [Run.Setup.Unjoined.countP hnone]
        exact Nat.zero_le 1
      · exact Nat.le_of_eq honce.once
    · have hzero : (h.ofHandle handle).countP Event.isCreate = 0 := by
        apply List.countP_eq_zero.mpr
        intro x hx hcreate
        obtain ⟨k, hrun, hmem⟩ := mem_ofHandle.mp hx
        exact hsome ⟨k, admitted_of_create hin hrun hmem hcreate⟩
      omega
  · rintro ⟨x, hx, hforbids⟩ y hy
    obtain ⟨j, hj, hxj⟩ := mem_ofHandle.mp hx
    obtain ⟨k, hk, hyk⟩ := mem_ofHandle.mp hy
    cases hcreate : y.isCreate with
    | false => rfl
    | true =>
      -- both happened in the one run that found the session ready
      have heq : j = k := hlocked.unique (admitted_of_forbids hin hj hxj hforbids)
        (admitted_of_create hin hk hyk hcreate)
      subst heq
      rcases create_of_run hin hj with hnone | honce
      · rw [hnone y hyk] at hcreate
        cases hcreate
      · rw [honce.allowed x hxj] at hforbids
        cases hforbids

end History

end ResumableUpload.Session
