import ResumableUpload.Proofs.Session.Announcing
import ResumableUpload.Proofs.Session.Closing
import ResumableUpload.Proofs.Session.Hosts
import ResumableUpload.Proofs.Session.Parts

/-!
# What a run does about its host

A run looks for a host before it sends parts, and its worker does so again for every attempt
(`Stage.attempt?`). What counts for the host are three things (`Mark`): that the server is asked for
one, that a part is sent to one, and how the part is answered.

A step of a run with one worker does one of few things about the host (`Deals`), if the session is
not cancelled, lookups find hosts and no attempt is cut off: nothing, or a search begins, or the
resolver is asked, or it hears how a host did (`Run.Setup.deals_turn`).
-/

namespace ResumableUpload

/-- The lookup finds a host. -/
def LookupOutcome.finds : LookupOutcome → Bool
  | .servers addresses => addresses.any LocateReply.isSecure
  | _ => false

/-- The caller gets no host. -/
def Resolution.isFailure : Resolution → Bool
  | .done (.error _) | .poisoned => true
  | _ => false

/-- What a worker is about with a host. -/
def Worker.attempt? : Worker Session.Transfer → Option Session.Attempt
  | .uploading _ (.attempting _ _ a) => some a
  | _ => none

namespace Session

/-- Something that counts for the host of a run. -/
inductive Mark
  -- the server is asked for a host
  | located
  -- a part is sent to the host with this address
  | sent (url : String)
  -- a part is answered
  | answered (r : Reply)

def Call.mark? : Call → Option Mark
  | .locate _ => some .located
  | .slice url _ _ => some (.sent url)
  | _ => none

def Event.mark? : Event → Option Mark
  | .called _ c => c.mark?
  | .answered _ (.slice ..) r => some (.answered r)
  | _ => none

namespace Mark

/-- What counts among calls. -/
def ofCalls (calls : List Call) : List Mark := calls.filterMap Call.mark?

/-- What counts among events. -/
def among (evs : List Event) : List Mark := evs.filterMap Event.mark?

theorem ofCalls_append (a b : List Call) : ofCalls (a ++ b) = ofCalls a ++ ofCalls b :=
  List.filterMap_append

theorem among_append (a b : List Event) : among (a ++ b) = among a ++ among b :=
  List.filterMap_append

theorem among_calls (worker : Option Nat) (calls : List Call) :
    among (calls.map (.called worker)) = ofCalls calls := List.filterMap_map

theorem among_eq_nil {evs : List Event} (h : ∀ x ∈ evs, x.mark? = none) : among evs = [] :=
  List.filterMap_eq_nil_iff.mpr h

end Mark

/-! ## What a run is about -/

def Transfer.attempt? : Transfer → Option Attempt
  | .attempting _ _ a => some a
  | _ => none

def TransferResult.attempt? : TransferResult → Option Attempt
  | .more t => t.attempt?
  | _ => none

/-- What a run with one worker is about with a host. -/
def Stage.attempt? : Stage → Option Attempt
  | .locating _ c => some (.resolving c)
  | .sending _ pool => (pool.workers[0]?).bind Worker.attempt?
  | _ => none

/-- The run looks for a host before it sends parts. -/
def Stage.isLocating : Stage → Bool
  | .locating .. => true
  | _ => false

/-- The lookup that the signal ends, if it ends one, finds a host. -/
def Signal.finds : Signal → Bool
  | .lookup (.outcome o) _ => o.finds
  | .lookup (.crash _) _ => false
  | _ => true

def Signal.isLimit : Signal → Bool
  | .limit => true
  | _ => false

/-- The resolver that a caller finds: as it stands, or after the end of the lookup that the caller
waits for. -/
inductive Meets : Option Resolver → Caller → Option Resolver → Prop
  | stands (held : Option Resolver) (c : Caller) : Meets held c held
  | ends (held : Option Resolver) (l : Nat) {o : LookupOutcome} : o.finds = true →
      Meets held (.waiting l) (held.map (·.move (.conclude l o)))

/-- What follows from the answer of a resolver: what counts, and what the run is about then. `first`
says that the run has not sent parts. -/
inductive Ensues (first : Bool) : Resolution → List Mark → Option Attempt → Prop
  | waits (c : Caller) : Ensues first (.pending c) [] (some (.resolving c))
  | opens (e : Endpoint) : first = true → Ensues first (.done (.ok e)) [] none
  | sends (e : Endpoint) : first = false →
      Ensues first (.done (.ok e)) [.sent e.baseUrl] (some (.sending e))
  | lacks {res : Resolution} : res.isFailure = true → Ensues first res [] none

/-- What a resolver hears of the reply of a host. -/
def Reply.reports (e : Endpoint) : Reply → List Resolver.Move
  | .slice _ => [.succeed]
  | .fault f => if f.kind.isConnectionClass then [.fail e] else []
  | _ => []

/-- What a step of a run does about its host: its resolver and what it is about before the step,
what counts in the step, and both after it. -/
inductive Deals (first : Bool) :
    Option Resolver → Option Attempt → List Mark → Option Resolver → Option Attempt → Prop
  | rests (held : Option Resolver) (doing : Option Attempt) :
      Deals first held doing [] held doing
  -- the search for a host begins
  | begins (held : Option Resolver) :
      Deals first held none [] held (some (.resolving .entering))
  | asks {held : Option Resolver} {met : Resolver} {token : String} {c : Caller}
      {marks : List Mark} {next : Option Attempt} : Meets held c (some met) →
      Ensues first (met.ask token c).resolution marks next →
      Deals first held (some (.resolving c))
        ((met.ask token c).located.toList.map (fun _ => .located) ++ marks)
        (some (met.ask token c).resolver) next
  -- the host has answered, or stopped abnormally
  | hears (held : Option Resolver) (e : Endpoint) (reply : Reply) :
      Deals first held (some (.sending e)) [.answered reply]
        (held.map (·.after (reply.reports e))) none

/-! ## A resolver is asked -/

namespace World

variable {w : World} {i : Nat} {token : String} {c : Caller}

theorem ask_none (h : w.resolvers[i]? = none) : w.ask i token c = ⟨w, .pending c, []⟩ := by
  simp only [ask, h]

theorem getElem?_moved (w : World) (i : Nat) (ms : List Resolver.Move) :
    (w.moved i ms)[i]? = (w.resolvers[i]?).map (·.after ms) := by
  rw [moved, List.getElem?_modify]
  cases w.resolvers[i]? with
  | none => rfl
  | some r => exact congrArg some (if_pos rfl)

theorem resolution_ask {r : Resolver} (h : w.resolvers[i]? = some r) :
    (w.ask i token c).resolution = (r.ask token c).resolution := by
  simp only [ask, h]

theorem marks_ask {r : Resolver} (h : w.resolvers[i]? = some r) :
    Mark.ofCalls (Note.calls (w.ask i token c).notes)
      = (r.ask token c).located.toList.map fun _ => .located := by
  simp only [ask, h]
  rw [Note.calls_append, Note.calls_lines, List.nil_append]
  cases (r.ask token c).located <;> rfl

end World

section

variable {token : String} {first : Bool} {held : Option Resolver} {c : Caller} {w : World} {i : Nat}
  {marks : List Mark} {next : Option Attempt}

/-- A caller that asks a resolver which is there; without one it goes on asking. -/
theorem Deals.ask (hmeets : Meets held c w.resolvers[i]?)
    (hensues : Ensues first (w.ask i token c).resolution marks next) :
    Deals first held (some (.resolving c))
      (Mark.ofCalls (Note.calls (w.ask i token c).notes) ++ marks)
      (w.ask i token c).world.resolvers[i]? next := by
  cases hr : w.resolvers[i]? with
  | none =>
    have hheld : held = none := by
      rw [hr] at hmeets
      generalize hmet : (none : Option Resolver) = met at hmeets
      cases hmeets with
      | stands => rfl
      | ends held _ =>
        rw [Option.map_eq_none_iff.mp hmet.symm]
        rfl
    rw [World.ask_none hr] at hensues ⊢
    rw [hheld, hr]
    cases hensues with
    | waits => exact .rests none _
    | lacks hfails => cases hfails
  | some met =>
    have hafter : (w.ask i token c).world.resolvers[i]? = some (met.ask token c).resolver := by
      rw [World.resolvers_ask, World.getElem?_moved, hr]
      rfl
    rw [World.marks_ask hr, hafter]
    rw [World.resolution_ask hr] at hensues
    rw [hr] at hmeets
    exact .asks hmeets hensues

theorem Meets.ofLookup (w : World) (i l : Nat) {o : LookupOutcome} (h : o.finds = true) :
    Meets w.resolvers[i]? (.waiting l) (w.endLookup i l (.outcome o)).1.resolvers[i]? := by
  rw [World.resolvers_endLookup, World.getElem?_moved]
  exact .ends _ l h

end

/-! ## The upload of a part -/

namespace Transfer

variable (job : Job) (c : Chunk)

/-- The answer that a step takes up. -/
def heard : Transfer → Signal → List Mark
  | .attempting _ _ (.sending _), .reply (.precreate _) _ => []
  | .attempting _ _ (.sending _), .reply (.create _) _ => []
  | .attempting _ _ (.sending _), .reply r _ => [.answered r]
  | _, _ => []

/-- An attempt that has ended is over. -/
theorem attempt?_conclude (payload : ByteArray) (n : Nat) (w : World) (o : Retry.Outcome String) :
    (conclude job c payload n w o).result.attempt? = none := by
  have hfault : ∀ f : CallFault, (ofLoop job c payload
      ((operation job c).afterFault 0 n f).1).1.attempt? = none := by
    intro f
    unfold Retry.Operation.afterFault
    split
    · rfl
    · split <;> rfl
  cases o with
  | value md5 => rfl
  | fault f => exact hfault f
  | late => exact hfault (operation job c).lateFault

/-- What an attempt does that has the answer of the resolver. -/
theorem ensues_resolved (payload : ByteArray) (n : Nat) (r : World.Resolved) :
    ∃ marks, Ensues false r.resolution marks (resolved job c payload n r).result.attempt? ∧
      Mark.ofCalls (Note.calls (resolved job c payload n r).notes)
        = Mark.ofCalls (Note.calls r.notes) ++ marks := by
  have hnone := (List.append_nil (Mark.ofCalls (Note.calls r.notes))).symm
  unfold resolved
  split
  · next caller hr =>
    rw [hr]
    exact ⟨[], .waits caller, hnone⟩
  · next hr =>
    rw [hr]
    exact ⟨[], .lacks rfl, hnone⟩
  · next e hr =>
    rw [hr]
    refine ⟨[.sent e.baseUrl], .sends e rfl, ?_⟩
    dsimp only
    rw [Note.calls_append, Mark.ofCalls_append]
    rfl
  · next detail hr =>
    rw [hr]
    refine ⟨[], ?_, ?_⟩
    · dsimp only
      rw [attempt?_conclude]
      exact .lacks rfl
    · dsimp only
      rw [Note.calls_append, conclude, calls_retry, List.append_nil, List.append_nil]

variable {w : World} {sig : Signal}

theorem deals_resolved (payload : ByteArray) (n : Nat) {held : Option Resolver} {caller : Caller}
    (hmeets : Meets held caller w.resolvers[job.resolver]?) :
    let turn := resolved job c payload n (w.ask job.resolver job.target.accessToken caller)
    Deals false held (some (.resolving caller))
      (Mark.ofCalls (Note.calls turn.notes)) turn.world.resolvers[job.resolver]?
      turn.result.attempt? := by
  intro turn
  obtain ⟨marks, hensues, hmarks⟩ :=
    ensues_resolved job c payload n (w.ask job.resolver job.target.accessToken caller)
  rw [show Mark.ofCalls (Note.calls turn.notes) = _ from hmarks,
    show turn.world = _ from world_resolved job c payload n _]
  exact .ask hmeets hensues

/-- A reply is heard of. -/
theorem deals_replied (payload : ByteArray) (n : Nat) (e : Endpoint) (w : World) (r : Reply)
    (cancels : List Nat) :
    let turn := replied job c payload n e w r
    Deals false w.resolvers[job.resolver]? (some (.sending e))
      (heard (.attempting payload n (.sending e)) (.reply r cancels))
      turn.world.resolvers[job.resolver]? turn.result.attempt? := by
  intro turn
  have hworld := resolvers_replied job c payload n e w r cancels
  have hhears : Deals false w.resolvers[job.resolver]? (some (.sending e)) [.answered r]
      ((w.resolvers[job.resolver]?).map (·.after (r.reports e))) none := .hears _ e r
  cases r with
  | slice r =>
    rw [show turn.world.resolvers = _ from hworld, World.getElem?_moved,
      show turn.result.attempt? = none from attempt?_conclude job c payload n _ _]
    exact hhears
  | fault f =>
    rw [show turn.world.resolvers = _ from hworld, World.getElem?_moved,
      show turn.result.attempt? = none from attempt?_conclude job c payload n w (.fault f)]
    exact hhears
  | crash text =>
    rw [show turn.world.resolvers = _ from hworld, World.getElem?_moved]
    exact hhears
  | precreate r => exact .rests _ _
  | create r => exact .rests _ _

/-- What a step of the upload of a part does about the host. -/
theorem deals_step (w : World) (t : Transfer) (hfinds : sig.finds = true)
    (hlimit : sig.isLimit = false) :
    let turn := t.step job c false w sig
    Deals false w.resolvers[job.resolver]? t.attempt?
      (t.heard sig ++ Mark.ofCalls (Note.calls turn.notes)) turn.world.resolvers[job.resolver]?
      turn.result.attempt? := by
  cases t with
  | reading =>
    cases sig with
    | go =>
      simp only [step]
      split <;> exact .rests _ none
    | _ => exact .rests _ none
  | ready payload n =>
    cases sig with
    | go => exact .begins _
    | _ => exact .rests _ none
  | pausing payload n wait =>
    cases sig with
    | wake => exact .rests _ none
    | _ => exact .rests _ none
  | attempting payload n a =>
    cases a with
    | sending e =>
      cases sig with
      | reply r cancels =>
        simp only [step, calls_replied]
        rw [Mark.ofCalls, List.filterMap_nil, List.append_nil]
        exact deals_replied job c payload n e w r cancels
      | limit => cases hlimit
      | _ => exact .rests _ _
    | resolving caller =>
      cases sig with
      | go => exact deals_resolved job c payload n (.stands _ caller)
      | limit => cases hlimit
      | lookup reply cancels =>
        cases caller with
        | waiting l =>
          cases reply with
          | outcome o =>
            have hmeets := Meets.ofLookup w job.resolver l hfinds
            have hdeals := deals_resolved job c payload n hmeets
            simp only [step]
            rw [Note.calls_append, Note.calls_lines, List.nil_append]
            exact hdeals
          | crash text => cases hfinds
        | _ => exact .rests _ _
      | _ => exact .rests _ _

end Transfer

/-! ## A run -/

theorem attempt?_of_shows {stage : Stage} {st : State} (h : stage.Shows st)
    (hst : st ≠ .uploading) : stage.attempt? = none := by
  cases stage with
  | locating job c => exact absurd h hst
  | sending job pool => exact absurd h hst
  | _ => rfl

/-- The workers of a pool that starts are about nothing yet. -/
theorem attempt?_start (job : Job) (threads : Nat) (chunks : List Chunk) :
    (Stage.sending job (.start threads chunks)).attempt? = none := by
  show ((List.replicate _ Worker.ready)[0]?).bind Worker.attempt? = none
  rw [List.getElem?_replicate]
  split <;> rfl

namespace Run.Setup

variable {s : Setup} {w : World} {job : Job} {pool : Pool Transfer} {stage : Stage} {sig : Signal}
  {i : Nat}

/-! ### The task of the run -/

/-- What a run does that has the answer of the resolver. -/
theorem ensues_located (s : Setup) (job : Job) (r : World.Resolved) :
    Ensues true r.resolution [] (s.located job r).stage.attempt? ∧
      Note.calls (s.located job r).notes = Note.calls r.notes := by
  unfold located
  split
  · next caller hr =>
    rw [hr]
    exact ⟨.waits caller, rfl⟩
  · next hr =>
    rw [hr]
    exact ⟨.lacks rfl, rfl⟩
  · next detail hr =>
    rw [hr]
    exact ⟨.lacks rfl, rfl⟩
  · next e hr =>
    rw [hr]
    refine ⟨?_, ?_⟩
    · dsimp only
      rw [attempt?_start]
      exact .opens e rfl
    · dsimp only
      rw [Note.calls_append, Note.calls_lines, List.append_nil]

theorem deals_located (s : Setup) (job : Job) {held : Option Resolver} {caller : Caller}
    (hmeets : Meets held caller w.resolvers[s.resolver]?) :
    let turn := s.located job (w.ask s.resolver s.target.accessToken caller)
    Deals true held (some (.resolving caller))
      (Mark.ofCalls (Note.calls turn.notes)) turn.world.resolvers[s.resolver]?
      turn.stage.attempt? := by
  intro turn
  obtain ⟨hensues, hcalls⟩ :=
    s.ensues_located job (w.ask s.resolver s.target.accessToken caller)
  rw [show Note.calls turn.notes = _ from hcalls,
    show turn.world = _ from s.world_located job _, ← List.append_nil (Mark.ofCalls _)]
  exact .ask hmeets hensues

/-- What a run does about its host before it sends parts. -/
theorem deals_locating (s : Setup) (w : World) (job : Job) (caller : Caller)
    (hfinds : sig.finds = true) :
    let turn := s.main w false (.locating job caller) sig
    Deals true w.resolvers[s.resolver]? (some (.resolving caller))
      (Mark.ofCalls (Note.calls turn.notes)) turn.world.resolvers[s.resolver]?
      turn.stage.attempt? := by
  cases caller with
  | waiting l =>
    cases sig with
    | go => exact s.deals_located job (.stands _ (.waiting l))
    | lookup reply cancels =>
      cases reply with
      | outcome o =>
        have hdeals := s.deals_located job (Meets.ofLookup w s.resolver l hfinds)
        simp only [main]
        rw [Note.calls_append, Note.calls_lines, List.nil_append]
        exact hdeals
      | crash text => cases hfinds
    | _ => exact .rests _ _
  | entering => cases sig with
    | go => exact s.deals_located job (.stands _ .entering)
    | _ => exact .rests _ _
  | missed => cases sig with
    | go => exact s.deals_located job (.stands _ .missed)
    | _ => exact .rests _ _

theorem mark?_of_deeds {next : Stage} {x : Event} (h : x ∈ s.deeds w stage sig next) :
    x.mark? = none := by
  unfold deeds at h
  split at h
  · obtain ⟨hd, -, rfl⟩ := List.mem_map.mp h
    rfl
  · rw [List.mem_singleton.mp h]
    rfl
  · rw [List.mem_singleton.mp h]
    rfl
  · split at h
    · rw [List.mem_cons, List.mem_singleton] at h
      rcases h with rfl | rfl <;> rfl
    · rw [List.mem_singleton.mp h]
      rfl
  · rw [List.mem_singleton.mp h]
    rfl
  · rw [List.mem_singleton.mp h]
    rfl
  · cases h

/-- The task of a run takes up no answers that count. -/
theorem mark?_of_answers {x : Event} (h : x ∈ s.answers none stage sig) : x.mark? = none := by
  obtain ⟨c, r, cancels, hcall, -, rfl⟩ := mem_answers h
  cases stage with
  | announcing plan d retry =>
    cases retry with
    | attempting n =>
      rw [← Option.some.inj hcall]
      rfl
    | _ => cases hcall
  | finalizing job =>
    rw [← Option.some.inj hcall]
    rfl
  | _ => cases hcall

/-- Where it looks for no host, nothing counts in a step of the task of a run. -/
theorem marks_main (s : Setup) (w : World) (cancelled : Bool) (sig : Signal)
    (hstage : stage.isLocating = false) :
    Mark.among (s.events w cancelled none stage sig) = [] := by
  apply Mark.among_eq_nil
  intro x hx
  rw [events, List.mem_append, List.mem_append] at hx
  rcases hx with (hanswer | hdeed) | hcall
  · exact mark?_of_answers hanswer
  · exact mark?_of_deeds hdeed
  · obtain ⟨c, hc, rfl⟩ := List.mem_map.mp hcall
    cases asks_main hc with
    | looks => cases hstage
    | _ => rfl

/-- Before it looks for a host a run is about nothing, and its next step can begin the search. -/
theorem attempt?_main (s : Setup) (w : World) (sig : Signal) (hlocating : stage.isLocating = false)
    (hsending : stage.isSending = false) :
    (s.main w false stage sig).stage.attempt? = none ∨
      (s.main w false stage sig).stage.attempt? = some (.resolving .entering) := by
  have hquiet : ∀ {st : State}, stage.tells = false → stage.Shows st → st ≠ .uploading →
      (s.main w false stage sig).stage.attempt? = none :=
    fun htells hshows hst => attempt?_of_shows (shows_main htells hshows) hst
  cases stage with
  | locating => cases hlocating
  | sending => cases hsending
  | starting => exact .inl (hquiet rfl rfl (by decide))
  | hashing plan => exact .inl (hquiet rfl rfl (by decide))
  | claiming plan d => exact .inl (hquiet rfl rfl (by decide))
  | announcing plan d retry => exact .inl (hquiet rfl rfl (by decide))
  | finalizing job => exact .inl (hquiet rfl rfl (by decide))
  | ended result => exact .inl (by cases sig <;> rfl)
  | crashed report => exact .inl (by cases sig <;> rfl)
  | entering =>
    cases sig with
    | go =>
      simp only [main, enter]
      split
      · exact .inl rfl
      · split <;> exact .inl rfl
    | _ => exact .inl rfl
  | opening job =>
    cases sig with
    | go =>
      simp only [main, beginLocating]
      split
      · exact .inl rfl
      · exact .inr rfl
    | _ => exact .inl rfl
  | closing job report =>
    cases sig with
    | go =>
      simp only [main, close]
      split
      · exact .inl rfl
      · split
        · exact .inl rfl
        · exact .inl rfl
        · split <;> exact .inl rfl
    | _ => exact .inl rfl
  | checking job =>
    cases sig with
    | go =>
      simp only [main, finalize]
      split <;> exact .inl rfl
    | _ => exact .inl rfl
  | settling result =>
    cases sig with
    | go =>
      simp only [main, conclude]
      split <;> exact .inl rfl
    | _ => exact .inl rfl

/-- What a run is about when a worker has come to another place. -/
theorem attempt?_set (job : Job) {next : Pool Transfer} {old : Worker Transfer}
    (new : Worker Transfer) (hi : pool.workers[i]? = some old)
    (hnext : next.workers = pool.workers.set i new) :
    (Stage.sending job next).attempt?
      = if i = 0 then new.attempt? else (Stage.sending job pool).attempt? := by
  have hlt : i < pool.workers.length := (List.getElem?_eq_some_iff.mp hi).1
  rw [Stage.attempt?, hnext]
  split
  · next h =>
    subst h
    rw [List.getElem?_set_self hlt]
    rfl
  · next h =>
    rw [List.getElem?_set_ne h]
    rfl

/-- A worker that was about nothing and still is. -/
theorem attempt?_idle (job : Job) {next : Pool Transfer} {old new : Worker Transfer}
    (hi : pool.workers[i]? = some old) (hnext : next.workers = pool.workers.set i new)
    (hold : old.attempt? = none) (hnew : new.attempt? = none) :
    (Stage.sending job next).attempt? = (Stage.sending job pool).attempt? := by
  rw [attempt?_set job new hi hnext]
  split
  · next h =>
    subst h
    rw [Stage.attempt?, hi, hnew, ← hold]
    rfl
  · rfl

/-- A worker that is noticed to have stopped was about nothing. -/
theorem attempt?_collect (job : Job) (hfallen : pool.Fallen) :
    (Stage.sending job pool.collect.1).attempt? = (Stage.sending job pool).attempt? := by
  unfold Pool.collect
  split
  · rfl
  · next j text rest hrest =>
    have hcrashed : pool.workers[j]? = some .crashed := by
      rw [← hfallen.crashed, hrest]
      exact List.mem_cons_self
    exact attempt?_idle job hcrashed rfl rfl rfl

/-- While parts are sent the task of a run does nothing about the host. -/
theorem attempt?_main_sending (s : Setup) (w : World) (sig : Signal) (hfallen : pool.Fallen) :
    (s.main w false (.sending job pool) sig).stage.attempt?
      = (Stage.sending job pool).attempt? := by
  obtain ⟨-, hsame | hcollect | ⟨hclosing, hdone, -⟩⟩ :=
    s.main_while_sending w false job pool sig rfl
  · rw [hsame]
  · rw [hcollect]
    exact attempt?_collect job hfallen
  · rw [hclosing, Stage.attempt?]
    cases hfirst : pool.workers[0]? with
    | none => rfl
    | some wk =>
      have hleft := List.all_eq_true.mp hdone wk (List.mem_of_getElem? hfirst)
      cases wk with
      | left => rfl
      | _ => cases hleft

/-- What a step of the task of a run does about the host. -/
theorem deals_main (s : Setup) (w : World) (hfinds : sig.finds = true)
    (hfallen : ∀ job pool, stage = .sending job pool → pool.Fallen) :
    Deals stage.isLocating w.resolvers[s.resolver]? stage.attempt?
      (Mark.among (s.events w false none stage sig))
      (s.main w false stage sig).world.resolvers[s.resolver]?
      (s.main w false stage sig).stage.attempt? := by
  by_cases hlocating : stage.isLocating = true
  · cases stage with
    | locating job caller =>
      rw [events_locating, Mark.among_calls]
      exact s.deals_locating w job caller hfinds
    | _ => cases hlocating
  · have helse : stage.isLocating = false := by simpa using hlocating
    have hworld : (s.main w false stage sig).world.resolvers = w.resolvers := by
      apply (s.steps_main w false stage sig).resolvers
      rintro job c rfl
      exact hlocating rfl
    rw [helse, s.marks_main w false sig helse, hworld]
    cases hsending : stage.isSending with
    | true =>
      cases stage with
      | sending job pool =>
        rw [s.attempt?_main_sending w sig (hfallen job pool rfl)]
        exact .rests _ _
      | _ => cases hsending
    | false =>
      have hnone : stage.attempt? = none := by
        cases stage with
        | locating | sending => contradiction
        | _ => rfl
      rw [hnone]
      rcases s.attempt?_main w sig helse hsending with hnext | hnext
      · rw [hnext]
        exact .rests _ none
      · rw [hnext]
        exact .begins _

/-! ### A worker -/

theorem marks_interruptions (before after : Pool Transfer) :
    Mark.among (interruptions before after) = [] := by
  apply Mark.among_eq_nil
  intro x hx
  obtain ⟨n, -, rfl⟩ := List.mem_map.mp hx
  rfl

theorem marks_answers {c : Chunk} {t : Transfer}
    (hi : pool.workers[i]? = some (.uploading c t)) :
    Mark.among (s.answers (some i) (.sending job pool) sig) = t.heard sig := by
  simp only [answers, underWay, hi]
  cases t with
  | attempting payload n a =>
    cases a with
    | sending e =>
      cases sig with
      | reply r cancels => cases r <;> rfl
      | _ => rfl
    | resolving caller => rfl
  | _ => rfl

/-- A worker that does not upload is about nothing, and so it stays. -/
theorem attempt?_step (job : Job) (pool : Pool Transfer) (off : Bool) (i : Nat) :
    (Stage.sending job (pool.step (fun _ => .reading) off i).1).attempt?
      = (Stage.sending job pool).attempt? := by
  unfold Pool.step
  dsimp only
  split
  · next hi => split <;> exact attempt?_idle job hi rfl rfl rfl
  · next hi => split <;> exact attempt?_idle job hi rfl rfl rfl
  · next hi => split <;> exact attempt?_idle job hi rfl rfl rfl
  · next hi => split <;> exact attempt?_idle job hi rfl rfl rfl
  · next hi => exact attempt?_idle job hi rfl rfl rfl
  · next hi => exact attempt?_idle job hi rfl rfl rfl
  · rfl

/-- A worker that does not upload does nothing about the host. -/
theorem deals_idle (s : Setup) (w : World) (first : Bool) (sig : Signal)
    (hi : ∀ c t, pool.workers[i]? ≠ some (.uploading c t)) :
    Deals first w.resolvers[s.resolver]? (Stage.sending job pool).attempt?
      (Mark.among (s.events w false (some i) (.sending job pool) sig))
      (s.worker w false i (.sending job pool) sig).world.resolvers[s.resolver]?
      (s.worker w false i (.sending job pool) sig).stage.attempt? := by
  obtain ⟨next, lines, hturn, hsame⟩ : ∃ next lines,
      s.worker w false i (.sending job pool) sig = ⟨w, .sending job next, Note.lines lines⟩ ∧
      (Stage.sending job next).attempt? = (Stage.sending job pool).attempt? := by
    unfold worker
    dsimp only
    split
    · next hup => exact absurd hup (hi _ _)
    · split
      · exact ⟨_, _, rfl, attempt?_step job pool _ i⟩
      · exact ⟨pool, [], rfl, rfl⟩
  rw [s.events_worker hturn rfl, s.answers_idle hi, upsets_idle hi, Note.calls_lines,
    List.nil_append, List.map_nil, List.append_nil, marks_interruptions, hturn]
  dsimp only
  rw [hsame]
  exact .rests _ _

/-- What goes wrong in a step does not count. -/
theorem marks_upsets (i : Nat) (before after : Stage) :
    Mark.among (upsets i before after) = [] := by
  unfold upsets
  split
  · split
    · rfl
    · rfl
    · exact marks_interruptions _ _
  · rfl

/-- What counts in a step of a worker that uploads a part. -/
theorem marks_worker {c : Chunk} {t : Transfer} {turn : Turn} {next : Pool Transfer}
    (hi : pool.workers[i]? = some (.uploading c t))
    (hturn : s.worker w false i (.sending job pool) sig = turn)
    (hstage : turn.stage = .sending job next) :
    Mark.among (s.events w false (some i) (.sending job pool) sig)
      = t.heard sig ++ Mark.ofCalls (Note.calls turn.notes) := by
  rw [s.events_worker hturn hstage, Mark.among_append, Mark.among_append, marks_answers hi,
    marks_upsets, List.append_nil, Mark.among_calls]

/-- A worker that has finished its part is about nothing. -/
theorem attempt?_finish (job : Job) {c : Chunk} {t : Transfer} (result : Except UploadFault String)
    (hi : pool.workers[0]? = some (.uploading c t)) :
    (Stage.sending job (pool.finish 0 c result).1).attempt? = none := by
  cases result with
  | ok md5 => exact attempt?_set job .ready hi rfl
  | error f =>
    by_cases hf : f = .cancelled
    · subst hf
      exact attempt?_set job .ready hi rfl
    · rw [Pool.finish_fault pool 0 c hf]
      exact attempt?_set job (.failing c f) hi rfl

/-- What a step of the only worker does about the host while it uploads a part. -/
theorem deals_uploading {c : Chunk} {t : Transfer} (hi : pool.workers[0]? = some (.uploading c t))
    (hfree : w.isCancelled s.handle = false) (hfinds : sig.finds = true)
    (hlimit : sig.isLimit = false) :
    Deals false w.resolvers[job.resolver]? (Stage.sending job pool).attempt?
      (Mark.among (s.events w false (some 0) (.sending job pool) sig))
      (s.worker w false 0 (.sending job pool) sig).world.resolvers[job.resolver]?
      (s.worker w false 0 (.sending job pool) sig).stage.attempt? := by
  have hdeals := Transfer.deals_step job c w t hfinds hlimit
  have hbefore : (Stage.sending job pool).attempt? = t.attempt? := by
    rw [Stage.attempt?, hi]
    cases t <;> rfl
  have hwaits : ¬ (false && t.isWaiting) = true := Bool.false_ne_true
  have hturn := s.worker_uploading w job sig hi hwaits
  rw [hfree] at hturn
  rw [hbefore]
  cases hr : (t.step job c false w sig).result with
  | more t' =>
    simp only [hr] at hturn hdeals
    have hafter :
        (Stage.sending job (pool.setWorker 0 (.uploading c t'))).attempt? = t'.attempt? := by
      rw [attempt?_set job (.uploading c t') hi rfl, if_pos rfl]
      cases t' <;> rfl
    rw [marks_worker hi hturn rfl, hturn]
    dsimp only
    rw [hafter]
    exact hdeals
  | done result =>
    simp only [hr] at hturn hdeals
    rw [marks_worker hi hturn rfl, hturn]
    dsimp only
    rw [attempt?_finish job result hi, Note.calls_append, Note.calls_lines, List.append_nil]
    exact hdeals
  | crash text =>
    simp only [hr] at hturn hdeals
    have hafter : (Stage.sending job (pool.crash 0 text)).attempt? = none :=
      attempt?_set job .crashed hi rfl
    rw [marks_worker hi hturn rfl, hturn]
    dsimp only
    rw [hafter]
    exact hdeals

/-- What a step of a worker does about the host, when the run has one worker at most. -/
theorem deals_worker (hresolver : job.resolver = s.resolver)
    (hsingle : pool.workers.length ≤ 1) (hfree : w.isCancelled s.handle = false)
    (hfinds : sig.finds = true) (hlimit : sig.isLimit = false) (i : Nat) :
    Deals false w.resolvers[s.resolver]? (Stage.sending job pool).attempt?
      (Mark.among (s.events w false (some i) (.sending job pool) sig))
      (s.worker w false i (.sending job pool) sig).world.resolvers[s.resolver]?
      (s.worker w false i (.sending job pool) sig).stage.attempt? := by
  by_cases hup : ∃ c t, pool.workers[i]? = some (.uploading c t)
  · obtain ⟨c, t, hi⟩ := hup
    have hlt : i < pool.workers.length := (List.getElem?_eq_some_iff.mp hi).1
    obtain rfl : i = 0 := by omega
    rw [← hresolver]
    exact deals_uploading hi hfree hfinds hlimit
  · exact s.deals_idle w _ sig fun c t hi => hup ⟨c, t, hi⟩

/-- The run has one worker at most, which uses the resolver of the run. -/
structure IsLone (s : Setup) (job : Job) (pool : Pool Transfer) : Prop where
  resolver : job.resolver = s.resolver
  single : pool.workers.length ≤ 1
  fallen : pool.Fallen

/-- What a step of a task of a run does about its host. -/
theorem deals_turn (s : Setup) (hlone : ∀ job pool, stage = .sending job pool → s.IsLone job pool)
    (hfree : w.isCancelled s.handle = false) (hfinds : sig.finds = true) (worker : Option Nat)
    (hlimit : worker.isSome = true → sig.isLimit = false) :
    Deals stage.isLocating w.resolvers[s.resolver]? stage.attempt?
      (Mark.among (s.events w false worker stage sig))
      (s.turn w false worker stage sig).world.resolvers[s.resolver]?
      (s.turn w false worker stage sig).stage.attempt? := by
  cases worker with
  | none => exact s.deals_main w hfinds fun job pool hstage => (hlone job pool hstage).fallen
  | some i =>
    cases stage with
    | sending job pool =>
      obtain ⟨hresolver, hsingle, -⟩ := hlone job pool rfl
      exact deals_worker hresolver hsingle hfree hfinds (hlimit rfl) i
    | locating job c => exact .rests _ (some (.resolving c))
    | _ => exact .rests _ none

end Run.Setup

end Session

end ResumableUpload
