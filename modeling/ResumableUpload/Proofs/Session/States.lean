import ResumableUpload.Proofs.Session.Once

/-!
# The states of a session

A session is created, prepares, uploads and finalizes, and on its way may come to an end
(`State.Leads`, `State.Lawful`). The stage of its run shows the state that it is in
(`Stage.Shows`), and what a step of the run does to the state is one of five things (`Stride`).
-/

namespace ResumableUpload.Session

namespace State

/-- The states of a session that has not come to an end, in order. -/
def way : List State := [.created, .preparing, .uploading, .finalizing]

/-- The states of a session whose run is at work. -/
def underWay : List State := [.preparing, .uploading, .finalizing]

/-- The state of a session whose run has this result. -/
def ofResult : Except UploadFault Commit → State
  | .ok _ => .committed
  | .error .cancelled => .cancelled
  | .error _ => .failed

theorem mem_ofResult_error (f : UploadFault) : ofResult (.error f) ∈ [failed, cancelled] := by
  cases f <;> simp [ofResult]

theorem ofResult_of_ne_cancelled {f : UploadFault} (h : f ≠ .cancelled) :
    ofResult (.error f) = .failed := by
  cases f with
  | cancelled => exact absurd rfl h
  | _ => rfl

theorem not_terminal_of_underWay {st : State} (h : st ∈ underWay) : st.isTerminal = false := by
  revert st
  decide

theorem ofResult_eq_committed {result : Except UploadFault Commit}
    (h : ofResult result = .committed) : ∃ c, result = .ok c := by
  unfold ofResult at h
  split at h
  · exact ⟨_, rfl⟩
  · cases h
  · cases h

/-- The state that a session can be in after another. -/
inductive Leads : State → State → Prop
  | begins : Leads .created .preparing
  | opens : Leads .preparing .uploading
  | joins : Leads .uploading .finalizing
  -- the parts are joined, or the server had the content
  | commits {st : State} : st = .finalizing ∨ st = .preparing → Leads st .committed
  | stops {st last : State} : st ∈ underWay →
      last ∈ [failed, cancelled] → Leads st last

/-- A state is noted if it is another than the one noted last. -/
def note (states : List State) (st : State) : List State :=
  if states.getLast? = some st then states else states ++ [st]

/-- What a session may go through: the first part of the way, and one end at most. It is committed
from finalizing or, without sending anything, from preparing. -/
structure Lawful (states : List State) : Prop where
  starts : states.head? = some .created
  ends : ∃ run ending, states = run ++ ending ∧ run <+: way ∧ (ending = [] ∨
    ∃ last, ending = [last] ∧ last.isTerminal = true ∧ (last = .committed →
      run.getLast? = some .finalizing ∨ run.getLast? = some .preparing))

/-- The states that lead to this one. -/
inductive Path : List State → State → Prop
  | created : Path [.created] .created
  | leads {states : List State} {st next : State} :
      Path states st → Leads st next → Path (states ++ [next]) next

theorem Path.getLast? {states : List State} {st : State} (h : Path states st) :
    states.getLast? = some st := by
  cases h with
  | created => rfl
  | leads _ _ => exact List.getLast?_concat

theorem Leads.not_terminal {st next : State} (h : Leads st next) : st.isTerminal = false := by
  cases h with
  | commits hst => rcases hst with rfl | rfl <;> rfl
  | stops hst _ => exact not_terminal_of_underWay hst
  | _ => rfl

theorem eq_idxOf_way {n : Nat} {st : State} (hn : n < 4) (h : way[n]? = some st) :
    n = way.idxOf st := by
  match n, hn with
  | 0, _ => cases h; rfl
  | 1, _ => cases h; rfl
  | 2, _ => cases h; rfl
  | 3, _ => cases h; rfl

/-- What is noted of a session in this state; of a session that is not there nothing is. -/
def Noted (states : List State) : Option State → Prop
  | none => states = []
  | some st => Path states st

theorem Leads.ne {st next : State} (h : Leads st next) : next ≠ st := by
  cases h with
  | commits hst => rcases hst with rfl | rfl <;> exact State.noConfusion
  | stops hst hlast =>
    rintro rfl
    revert next
    decide
  | _ => exact State.noConfusion

theorem Noted.again {states : List State} {st : Option State} (h : Noted states st) :
    Noted (st.toList.foldl note states) st := by
  cases st with
  | none => exact h
  | some st =>
    show Path (note states st) st
    rwa [note, if_pos (Path.getLast? h)]

theorem Noted.begins {states : List State} (h : Noted states none) :
    Noted (note states .created) (some .created) := by
  obtain rfl : states = [] := h
  exact .created

theorem Noted.leads {states : List State} {st next : State} (h : Noted states (some st))
    (hleads : Leads st next) : Noted (note states next) (some next) := by
  have hother : states.getLast? ≠ some next := by
    rw [Path.getLast? h]
    exact fun heq => hleads.ne (Option.some.inj heq).symm
  show Path (note states next) next
  rw [note, if_neg hother]
  exact .leads h hleads

/-- Where a session on its way is, and how a session came to an end. -/
theorem Path.cases {states : List State} {st : State} (h : Path states st) :
    (∃ n < 4, states = way.take (n + 1) ∧ way[n]? = some st) ∨
      st.isTerminal = true ∧ ∃ n < 4, states = way.take (n + 1) ++ [st] ∧
        (st = .committed → n = 3 ∨ n = 1) := by
  induction h with
  | created => exact .inl ⟨0, by decide, rfl, rfl⟩
  | @leads states st next _ hleads ih =>
    rcases ih with ⟨n, hn, rfl, hst⟩ | ⟨hterm, -⟩
    · cases hleads with
      | begins =>
        obtain rfl : n = 0 := eq_idxOf_way hn hst
        exact .inl ⟨1, by decide, rfl, rfl⟩
      | opens =>
        obtain rfl : n = 1 := eq_idxOf_way hn hst
        exact .inl ⟨2, by decide, rfl, rfl⟩
      | joins =>
        obtain rfl : n = 2 := eq_idxOf_way hn hst
        exact .inl ⟨3, by decide, rfl, rfl⟩
      | commits hfrom =>
        refine .inr ⟨rfl, n, hn, rfl, fun _ => ?_⟩
        rcases hfrom with rfl | rfl
        · exact .inl (eq_idxOf_way hn hst)
        · exact .inr (eq_idxOf_way hn hst)
      | stops _ hlast =>
        simp only [List.mem_cons, List.not_mem_nil, or_false] at hlast
        rcases hlast with rfl | rfl
        · exact .inr ⟨rfl, n, hn, rfl, State.noConfusion⟩
        · exact .inr ⟨rfl, n, hn, rfl, State.noConfusion⟩
    · rw [hleads.not_terminal] at hterm
      cases hterm

theorem Path.lawful {states : List State} {st : State} (h : Path states st) : Lawful states := by
  rcases h.cases with ⟨n, -, rfl, -⟩ | ⟨hterm, n, -, rfl, hcommits⟩
  · exact ⟨rfl, way.take (n + 1), [], (List.append_nil _).symm, List.take_prefix _ _, .inl rfl⟩
  · refine ⟨rfl, way.take (n + 1), [st], rfl, List.take_prefix _ _, .inr ⟨st, rfl, hterm, ?_⟩⟩
    intro hst
    rcases hcommits hst with rfl | rfl
    · exact .inl rfl
    · exact .inr rfl

end State

/-! ## What a stage shows -/

/-- The session is in this state when its run is at this stage. -/
def Stage.Shows : Stage → State → Prop
  | .entering, st => st = .created
  | .starting, st | .hashing _, st | .claiming _ _, st | .announcing _ _ _, st | .opening _, st =>
    st = .preparing
  | .locating _ _, st | .sending _ _, st | .closing _ _, st | .checking _, st => st = .uploading
  | .finalizing _, st => st = .finalizing
  | .settling (.ok c), st => st = if c.rapid then .preparing else .finalizing
  | .settling (.error _), st | .crashed _, st => st ∈ State.underWay
  | .ended result, st => st = .ofResult result

/-- The run tells its session with its next step how far it has come. -/
def Stage.tells : Stage → Bool
  | .entering | .opening _ | .checking _ | .settling _ => true
  | _ => false

/-- What a step of a run does to the state of its session: the stage before, the state before, and
the same after the step. -/
inductive Stride : Stage → State → Stage → State → Prop
  | stays {stage next : Stage} {st : State} : next.Shows st → Stride stage st next st
  | begins : Stride .entering .created .starting .preparing
  | opens {job : Job} {next : Stage} : next.Shows .uploading →
      Stride (.opening job) .preparing next .uploading
  | joins {job : Job} : Stride (.checking job) .uploading (.finalizing job) .finalizing
  | ends {result : Except UploadFault Commit} {st : State} : (Stage.settling result).Shows st →
      Stride (.settling result) st (.ended result) (.ofResult result)

namespace Stride

variable {stage next : Stage} {st st' : State}

theorem shows (h : Stride stage st next st') : next.Shows st' := by
  cases h with
  | stays hnext => exact hnext
  | opens hnext => exact hnext
  | _ => rfl

theorem leads (h : Stride stage st next st') : st' = st ∨ st.Leads st' := by
  cases h with
  | stays _ => exact .inl rfl
  | begins => exact .inr .begins
  | opens _ => exact .inr .opens
  | joins => exact .inr .joins
  | @ends result _ hshows =>
    refine .inr ?_
    cases result with
    | ok c =>
      simp only [Stage.Shows] at hshows
      apply State.Leads.commits
      rw [hshows]
      split
      · exact .inr rfl
      · exact .inl rfl
    | error f => exact .stops hshows (State.mem_ofResult_error f)

/-- A session is committed by a run that has a commit. -/
theorem committed (h : Stride stage st next .committed) (hst : st ≠ .committed) :
    ∃ c, stage = .settling (.ok c) ∧ st = if c.rapid then .preparing else .finalizing := by
  generalize hlast : State.committed = last at h
  cases h with
  | stays _ => exact absurd hlast.symm hst
  | begins => cases hlast
  | opens _ => cases hlast
  | joins => cases hlast
  | ends hshows =>
    obtain ⟨c, rfl⟩ := State.ofResult_eq_committed hlast.symm
    exact ⟨c, rfl, hshows⟩

/-- A session that was not told the result yet has not come to an end. -/
theorem not_terminal_of_settling {result : Except UploadFault Commit}
    (h : (Stage.settling result).Shows st) : st.isTerminal = false := by
  cases result with
  | ok c =>
    rw [show st = _ from h]
    split <;> rfl
  | error f => exact State.not_terminal_of_underWay h

end Stride

/-! ## Steps of a run -/

/-- The state of a session. -/
def World.stateOf? (w : World) (handle : Nat) : Option State :=
  w.handles[handle]?.map Handle.state

namespace World

variable {w w' : World} {i j : Nat} {st next : State}

theorem stateOf?_of_handles (h : w'.handles = w.handles) (i : Nat) :
    w'.stateOf? i = w.stateOf? i := by
  rw [stateOf?, stateOf?, h]

theorem stateOf?_of_states (h : w'.handles.map Handle.state = w.handles.map Handle.state)
    (i : Nat) : w'.stateOf? i = w.stateOf? i := by
  rw [stateOf?, stateOf?, ← List.getElem?_map, ← List.getElem?_map, h]

theorem stateOf?_set_self {hd hd' : Handle} (h : w.handles[i]? = some hd) :
    stateOf? { w with handles := w.handles.set i hd' } i = some hd'.state := by
  have hlt : i < w.handles.length := (List.getElem?_eq_some_iff.mp h).1
  simp only [stateOf?, List.getElem?_set_self hlt, Option.map_some]

theorem stateOf?_set_ne {hd : Handle} (h : i ≠ j) :
    stateOf? { w with handles := w.handles.set i hd } j = w.stateOf? j := by
  simp only [stateOf?, List.getElem?_set_ne h]

theorem stateOf?_advance (h : w.stateOf? i = some st) (hst : st.isTerminal = false) :
    (w.advance i next).1.stateOf? i = some next := by
  obtain ⟨hd, hhd, rfl⟩ := Option.map_eq_some_iff.mp h
  have hadvance : hd.advance next = ({ hd with state := next },
      [.debug s!"会话 {hd.id} 状态: {hd.state.label} -> {next.label}"]) := by
    rw [Handle.advance, hst]
    rfl
  simp only [advance, withHandle, hhd, hadvance]
  exact stateOf?_set_self hhd

theorem stateOf?_advance_ne (h : i ≠ j) : (w.advance i next).1.stateOf? j = w.stateOf? j := by
  unfold advance withHandle
  split
  · rfl
  · exact stateOf?_set_ne h

end World

namespace Run.Setup

variable {s : Setup} {w w' : World} {stage next : Stage} {sig : Signal} {st : State}
  {cancelled : Bool}

/-- Sessions are left alone by a step that tells them nothing. -/
theorem Steps.handles (h : s.Steps w stage sig w' next) (hquiet : stage.tells = false) :
    w'.handles = w.handles := by
  cases h with
  | enters _ _ => cases hquiet
  | opens _ => cases hquiet
  | joins => cases hquiet
  | ends _ => cases hquiet
  | looks hsame _ => exact hsame.handles
  | finds _ hsame => exact hsame.handles
  | _ => rfl

/-- A step of the task of a run changes the state of no session but its own. -/
theorem Steps.stateOf?_ne (h : s.Steps w stage sig w' next) {j : Nat} (hj : s.handle ≠ j) :
    w'.stateOf? j = w.stateOf? j := by
  cases h with
  | enters _ _ => exact World.stateOf?_set_ne hj
  | opens _ => exact World.stateOf?_advance_ne hj
  | joins => exact World.stateOf?_advance_ne hj
  | ends _ => exact World.stateOf?_advance_ne hj
  | looks hsame _ => exact World.stateOf?_of_handles hsame.handles j
  | finds _ hsame => exact World.stateOf?_of_handles hsame.handles j
  | _ => rfl

theorem shows_announce (s : Setup) (w : World) (plan : Plan) (d : Digest.FileDigests)
    (retry : Retry.Stage) (cancelled : Bool) (signal : Retry.Signal PrecreateReply) :
    (s.announce w plan d retry cancelled signal).stage.Shows .preparing := by
  unfold announce
  generalize (Retry.Loop.active retry).step s.announcement 0 cancelled signal = result
  obtain ⟨loop, lines⟩ := result
  dsimp only
  split
  · rfl
  · unfold ofAnnouncement
    split
    · rfl
    · rfl
    · rfl
    · unfold announced
      split <;> rfl
    · show State.preparing ∈ State.underWay
      decide

theorem shows_located (s : Setup) (job : Job) (r : World.Resolved) :
    (s.located job r).stage.Shows .uploading := by
  unfold located
  split
  · rfl
  · show State.uploading ∈ State.underWay
    decide
  · show State.uploading ∈ State.underWay
    decide
  · rfl

theorem shows_close (s : Setup) (w : World) (job : Job) (report : PoolReport) :
    (s.close w job report).stage.Shows .uploading := by
  have hfails : ∀ (w' : World) (f : UploadFault) (notes : List Note),
      (settle w' (.error f) notes).stage.Shows .uploading := by
    intro w' f notes
    show State.uploading ∈ State.underWay
    decide
  unfold close
  dsimp only
  split
  · exact hfails _ _ _
  · split
    · exact hfails _ _ _
    · exact hfails _ _ _
    · split
      · rfl
      · exact hfails _ _ _

/-- What a step does to the state of the session. -/
def Strides (s : Setup) (stage : Stage) (st : State) (w : World) (next : Stage) : Prop :=
  ∃ st', w.stateOf? s.handle = some st' ∧ Stride stage st next st'

/-- A step that tells the session nothing leads to a stage that shows the same state. -/
theorem strides_quiet (hquiet : stage.tells = false) (hst : w.stateOf? s.handle = some st)
    (hshows : (s.main w cancelled stage sig).stage.Shows st) :
    s.Strides stage st (s.main w cancelled stage sig).world
      (s.main w cancelled stage sig).stage := by
  refine ⟨st, ?_, .stays hshows⟩
  rw [World.stateOf?_of_handles ((steps_main s w cancelled stage sig).handles hquiet), hst]

/-- Where a step of a run that tells its session nothing leads to. -/
theorem shows_main (hquiet : stage.tells = false) (hshows : stage.Shows st) :
    (s.main w cancelled stage sig).stage.Shows st := by
  have hearly : State.preparing ∈ State.underWay := by decide
  cases stage with
  | entering => cases hquiet
  | opening job => cases hquiet
  | checking job => cases hquiet
  | settling result => cases hquiet
  | starting =>
    cases sig with
    | go =>
      obtain rfl : st = .preparing := hshows
      simp only [main, start]
      split
      · exact hearly
      · rfl
    | _ => exact hshows
  | hashing plan =>
    cases sig with
    | go =>
      obtain rfl : st = .preparing := hshows
      simp only [main, hash]
      split
      · exact hearly
      · split
        · exact hearly
        · rfl
    | _ => exact hshows
  | claiming plan d =>
    cases sig with
    | go =>
      obtain rfl : st = .preparing := hshows
      simp only [main, claim]
      split <;> rfl
    | _ => exact hshows
  | announcing plan d retry =>
    obtain rfl : st = .preparing := hshows
    cases sig with
    | lookup r cancels => rfl
    | reply r cancels =>
      cases r with
      | precreate r => exact shows_announce s w plan d retry cancelled _
      | fault f => exact shows_announce s w plan d retry cancelled _
      | crash text =>
        cases retry with
        | attempting n => exact hearly
        | _ => rfl
      | _ => rfl
    | _ => exact shows_announce s w plan d retry cancelled _
  | locating job c =>
    obtain rfl : st = .uploading := hshows
    have hlost : State.uploading ∈ State.underWay := by decide
    cases c with
    | waiting l =>
      cases sig with
      | go =>
        simp only [main]
        split
        · exact hlost
        · exact shows_located s job _
      | lookup reply cancels =>
        cases reply with
        | outcome o => exact shows_located s job _
        | crash text => exact hlost
      | _ => rfl
    | entering =>
      cases sig with
      | go => exact shows_located s job _
      | _ => rfl
    | missed =>
      cases sig with
      | go => exact shows_located s job _
      | _ => rfl
  | sending job pool =>
    cases sig with
    | go =>
      obtain rfl : st = .uploading := hshows
      simp only [main, attend]
      split
      · rfl
      · split <;> rfl
    | _ => exact hshows
  | closing job report =>
    cases sig with
    | go =>
      obtain rfl : st = .uploading := hshows
      exact shows_close s w job report
    | _ => exact hshows
  | finalizing job =>
    obtain rfl : st = .finalizing := hshows
    have hlate : State.finalizing ∈ State.underWay := by decide
    cases sig with
    | reply r cancels =>
      cases r with
      | create r => rfl
      | fault f => exact hlate
      | crash text => exact hlate
      | _ => rfl
    | limit => exact hlate
    | _ => rfl
  | ended result => cases sig <;> exact hshows
  | crashed report => cases sig <;> exact hshows

/-- What a step of the task of a run does to the state of its session. -/
theorem strides_main (hst : w.stateOf? s.handle = some st) (hshows : stage.Shows st) :
    s.Strides stage st (s.main w cancelled stage sig).world
      (s.main w cancelled stage sig).stage := by
  cases hquiet : stage.tells with
  | false => exact strides_quiet hquiet hst (shows_main hquiet hshows)
  | true =>
    cases stage with
    | entering =>
      cases sig with
      | go =>
        obtain rfl : st = .created := hshows
        obtain ⟨hd, hhd, hc⟩ := Option.map_eq_some_iff.mp hst
        simp only [main, enter, hhd, if_pos hc]
        exact ⟨.preparing, World.stateOf?_set_self hhd, .begins⟩
      | _ => exact ⟨st, hst, .stays hshows⟩
    | opening job =>
      cases sig with
      | go =>
        obtain rfl : st = .preparing := hshows
        have hnext : (w.advance s.handle .uploading).1.stateOf? s.handle = some .uploading :=
          World.stateOf?_advance hst rfl
        simp only [main, beginLocating]
        split
        · refine ⟨.uploading, hnext, .opens ?_⟩
          show State.uploading ∈ State.underWay
          decide
        · exact ⟨.uploading, hnext, .opens rfl⟩
      | _ => exact ⟨st, hst, .stays hshows⟩
    | checking job =>
      cases sig with
      | go =>
        obtain rfl : st = .uploading := hshows
        simp only [main, finalize]
        split
        · refine ⟨.uploading, hst, .stays ?_⟩
          show State.uploading ∈ State.underWay
          decide
        · exact ⟨.finalizing, World.stateOf?_advance hst rfl, .joins⟩
      | _ => exact ⟨st, hst, .stays hshows⟩
    | settling result =>
      cases sig with
      | go =>
        have hterm : st.isTerminal = false := Stride.not_terminal_of_settling hshows
        simp only [main, conclude]
        split
        · exact ⟨.committed, World.stateOf?_advance hst hterm, .ends hshows⟩
        · exact ⟨.cancelled, World.stateOf?_advance hst hterm, .ends hshows⟩
        · next f hf =>
          have hends := Stride.ends hshows
          rw [State.ofResult_of_ne_cancelled hf] at hends
          exact ⟨.failed, World.stateOf?_advance hst hterm, hends⟩
      | _ => exact ⟨st, hst, .stays hshows⟩
    | _ => cases hquiet

/-- Workers leave the stage of their run as it is, but for the pool. -/
theorem shows_worker (i : Nat) (hshows : stage.Shows st) :
    (s.worker w cancelled i stage sig).stage.Shows st := by
  unfold worker
  split
  · next job pool =>
    obtain rfl : st = .uploading := hshows
    split
    · next c t hi =>
      split
      · rfl
      · generalize t.step job c (w.isCancelled s.handle) w sig = step
        obtain ⟨world, result, notes⟩ := step
        cases result <;> rfl
    · split <;> rfl
  · exact hshows

/-- What a step of a task does to the state of the session of its run. -/
theorem strides_turn (cancelled : Bool) (sig : Signal) (worker : Option Nat)
    (hst : w.stateOf? s.handle = some st) (hshows : stage.Shows st) :
    s.Strides stage st (s.turn w cancelled worker stage sig).world
      (s.turn w cancelled worker stage sig).stage := by
  cases worker with
  | none => exact strides_main hst hshows
  | some i =>
    refine ⟨st, ?_, .stays ?_⟩
    · exact (World.stateOf?_of_handles (same_worker s w cancelled i stage sig).handles _).trans hst
    · exact shows_worker i hshows

theorem stateOf?_turn_ne (s : Setup) (w : World) (cancelled : Bool) (worker : Option Nat)
    (stage : Stage) (sig : Signal) {j : Nat} (hj : s.handle ≠ j) :
    (s.turn w cancelled worker stage sig).world.stateOf? j = w.stateOf? j := by
  cases worker with
  | none => exact (steps_main s w cancelled stage sig).stateOf?_ne hj
  | some i => exact World.stateOf?_of_handles (same_worker s w cancelled i stage sig).handles j

end Run.Setup

/-! ## How a session is committed -/

/-- What has happened in the run of a session before the session is committed, given the state that
the session was in: the parts were joined, or the server had the content. -/
inductive Commits (evs : List Event) : State → Prop
  | joined {token : String} {request : CreateRequest} {r : CreateReply} :
      .answered none (.create token request) (.create r) ∈ evs → Commits evs .finalizing
  | rapid {token : String} {request : PrecreateRequest} {r : PrecreateReply} :
      .answered none (.precreate token request) (.precreate r) ∈ evs → r.isRapid = true →
      Commits evs .preparing

theorem Run.Setup.Outcome.commits {s : Run.Setup} {c : Commit} {evs : List Event}
    (h : s.Outcome (.ok c) evs) :
    Commits evs (if c.rapid then .preparing else .finalizing) := by
  cases h with
  | rapid _ hrapid hc =>
    rw [if_pos hc]
    exact .rapid (List.mem_append_right _ List.mem_cons_self) hrapid
  | joined _ hc =>
    rw [if_neg (by rw [hc]; exact Bool.noConfusion)]
    exact .joined (List.mem_append_right _ List.mem_cons_self)

end ResumableUpload.Session
