import ResumableUpload.Endpoint.Resolver
import ResumableUpload.Rehearsal.Clockwork
import ResumableUpload.Rehearsal.Script

/-!
# Rehearsal of a resolver

Callers of one resolver, some at a set time and some of whom give up waiting, with a server whose
replies follow a script. A lookup that nobody waits for any more stays where it is until the next
caller takes it up.
-/

namespace ResumableUpload.Rehearsal.Resolving

/-- What a caller does. -/
inductive Doing
  | idle
  | asking (c : Caller)
  | done (result : Except String Endpoint)
  | gaveUp

/-- A caller. -/
structure Visitor where
  token : String
  doing : Doing := .idle

/-- What timers stand for. -/
inductive Event
  | enter (visitor : Nat)
  | giveUp (visitor : Nat)
  | reply (lookup : Nat) (r : Scripted (List String))
  | limit (lookup : Nat)

/-- A resolver and its callers. -/
structure State where
  resolver : Resolver
  script : List (Scripted (List String))
  visitors : List Visitor := []
  -- callers that came to wait for a lookup, in order
  waiters : List Nat := []
  count : Nat := 0
  -- when calls were made, the last one first, with their tokens
  calls : List (Nat × String) := []
  lines : List LogLine := []

def doing (s : State) (i : Nat) : Doing := ((s.visitors[i]?).map Visitor.doing).getD .gaveUp

def waitsFor? (s : State) (i : Nat) : Option Nat :=
  match doing s i with
  | .asking (.waiting l) => some l
  | _ => none

def setDoing (s : State) (i : Nat) (d : Doing) : State :=
  { s with visitors := s.visitors.modify i fun v => { v with doing := d } }

def answered (now : Nat) (s : State) (i : Nat) (a : Asked) : State × Effects Nat Event :=
  let s := { s with resolver := a.resolver, lines := s.lines ++ a.lines }
  let s :=
    match a.resolution with
    | .pending c => setDoing s i (.asking c)
    | .done result => setDoing s i (.done result)
    | .poisoned => setDoing s i .gaveUp
  let s := if s.waiters.contains i then s else { s with waiters := s.waiters ++ [i] }
  match a.located with
  | none => (s, {})
  | some l =>
    let reply := (replyAt? s.script s.count).getD { result := .ok ["https://c.pcs.example.com"] }
    let limit := deadline now s.resolver.settings.lookupTimeout
    ({ s with count := s.count + 1, calls := (now, l.token) :: s.calls },
      { timers := [⟨now + reply.delay, 1, .reply l.id reply⟩, ⟨limit, 2, .limit l.id⟩] })

def go (now : Nat) (s : State) (i : Nat) : State × Effects Nat Event :=
  match s.visitors[i]? with
  | none => (s, {})
  | some v =>
    match v.doing with
    | .idle => answered now s i (s.resolver.ask v.token .entering)
    | .asking c => answered now s i (s.resolver.ask v.token c)
    | _ => (s, {})

def conclude (now : Nat) (s : State) (i lookup : Nat) (o : LookupOutcome) :
    State × Effects Nat Event :=
  let (resolver, lines) := s.resolver.conclude lookup o
  let s := { s with resolver := resolver, lines := s.lines ++ lines }
  let others := s.waiters.filter fun j => j != i && waitsFor? s j == some lookup
  let (s, effects) := go now s i
  (s, { effects with wakes := effects.wakes ++ others })

def fire (now : Nat) (s : State) (e : Event) (taker : Option Nat) : State × Effects Nat Event :=
  match e, taker with
  | .enter i, _ => go now s i
  | .giveUp i, _ => (setDoing s i .gaveUp, {})
  | .reply l r, some i =>
    match r.result with
    | .ok addresses => conclude now s i l (.servers addresses)
    | .error f => conclude now s i l (.fault f)
  | .limit l, some i => conclude now s i l .late
  | _, none => (s, {})

def machine : Machine State Nat Event where
  isRunnable s i :=
    match doing s i with
    | .asking (.waiting l) => s.resolver.hasNews l
    | .asking _ => true
    | _ => false
  go := go
  takers s e :=
    match e with
    | .enter i | .giveUp i => [some i]
    | .reply l _ | .limit l => (s.waiters.filter fun i => waitsFor? s i == some l).map some
  keeps s e :=
    match e with
    | .enter i =>
      match doing s i with
      | .idle => true
      | _ => false
    | .giveUp i =>
      match doing s i with
      | .idle | .asking _ => true
      | _ => false
    | .reply l _ | .limit l => s.resolver.isAsking l
  fire := fire
  isDone s :=
    s.visitors.all fun v =>
      match v.doing with
      | .done _ | .gaveUp => true
      | _ => false

abbrev Stage := Scene State Nat Event

def start (settings : EndpointSettings) (script : List (Scripted (List String))) : Stage :=
  { state := { resolver := { settings := settings }, script := script } }

/-- A caller to come. -/
structure Visit where
  token : String
  after : Nat := 0
  patience : Option Nat := none

/-- Callers come, and each one has an answer or gives up. -/
def visit (s : Stage) (visits : List Visit) : Stage :=
  let lookups := s.timers.filter fun t =>
    match t.event with
    | .reply .. | .limit _ => true
    | _ => false
  let indexed := visits.zipIdx
  let timers : List (Timer Event) := indexed.flatMap fun (v, i) =>
    (if v.after = 0 then [] else [⟨s.now + v.after, 0, Event.enter i⟩])
      ++ v.patience.toList.map fun p => ⟨s.now + v.after + p, 4, Event.giveUp i⟩
  machine.play
    { s with
      state := { s.state with
        visitors := visits.map fun v => { token := v.token }
        waiters := [] }
      queue := indexed.filterMap fun (v, i) => if v.after = 0 then some i else none
      current := none
      timers := timers.foldl (fun timers t => t.insert timers) lookups }

def change (s : Stage) (f : Resolver → Resolver × List LogLine) : Stage :=
  let (resolver, lines) := f s.state.resolver
  { s with state := { s.state with resolver := resolver, lines := s.state.lines ++ lines } }

def pass (s : Stage) (millis : Nat) : Stage := { s with now := s.now + millis }

def takeCalls (s : Stage) : List (Nat × String) × Stage :=
  (s.state.calls.reverse, { s with state := { s.state with calls := [] } })

end ResumableUpload.Rehearsal.Resolving
