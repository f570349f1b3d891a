import ResumableUpload.Rehearsal.Clockwork
import ResumableUpload.Rehearsal.Script
import ResumableUpload.Retry.Loop

/-!
# Rehearsal of a retried call

One retried call, whose attempts follow a script, and which may be cancelled at a set time or by an
attempt.
-/

namespace ResumableUpload.Rehearsal.Retrying

/-- An attempt written down beforehand. -/
structure Attempt (α : Type) where
  delay : Nat := 0
  cancels : Bool := false
  result : Except CallFault α

/-- What timers stand for. -/
inductive Event
  | reply (n : Nat)
  | limit
  | wake
  | cancel

/-- A call under way. -/
structure State (α : Type) where
  operation : Retry.Operation
  script : List (Attempt α)
  loop : Retry.Loop α := .start
  cancelled : Bool := false
  -- when attempts were made, the last one first, with their numbers
  calls : List (Nat × Nat) := []
  lines : List LogLine := []

def signal (now : Nat) (s : State α) (cancelled : Bool) (signal : Retry.Signal α) :
    State α × Effects Unit Event :=
  let (loop, lines) := s.loop.step s.operation 0 cancelled signal
  let before := s.loop
  let s := { s with loop := loop, lines := s.lines ++ lines }
  match before, loop with
  | .active (.ready _), .active (.attempting n) =>
    let delay := ((replyAt? s.script n).map Attempt.delay).getD 0
    let limit := deadline now s.operation.policy.attemptTimeout
    ({ s with calls := (now, n) :: s.calls },
      { timers := [⟨now + delay, 1, .reply n⟩, ⟨limit, 3, .limit⟩] })
  | .active (.attempting _), .active (.pausing _ wait) =>
    (s, { timers := [⟨deadline now wait, 1, .wake⟩] })
  | _, _ => (s, {})

def fire (now : Nat) (s : State α) : Event → State α × Effects Unit Event
  | .reply n =>
    match replyAt? s.script n with
    | none => (s, {})
    | some a =>
      let outcome : Retry.Outcome α :=
        match a.result with
        | .ok v => .value v
        | .error f => .fault f
      let (s', effects) := signal now s s.cancelled (.outcome outcome)
      ({ s' with cancelled := s.cancelled || a.cancels }, effects)
  | .limit => signal now s s.cancelled (.outcome .late)
  | .wake => signal now s s.cancelled .wake
  | .cancel => ({ s with cancelled := true }, { wakes := [()] })

def machine : Machine (State α) Unit Event where
  isRunnable s _ :=
    match s.loop with
    | .active (.ready _) => true
    | .active _ => s.cancelled
    | .ended _ => false
  go now s _ := signal now s s.cancelled .look
  takers _ e :=
    match e with
    | .cancel => [none]
    | _ => [some ()]
  keeps s e :=
    match e, s.loop with
    | .reply n, .active (.attempting m) => n == m
    | .limit, .active (.attempting _) => true
    | .wake, .active (.pausing _ _) => true
    | .cancel, .active _ => true
    | _, _ => false
  fire now s e _ := fire now s e
  isDone s :=
    match s.loop with
    | .ended _ => true
    | _ => false

/-- How a rehearsal ended. -/
structure Ending (α : Type) where
  result : Except Retry.Failure α
  -- when attempts were made, with their numbers
  calls : List (Nat × Nat)
  finishedAt : Nat
  lines : List LogLine

def play (operation : Retry.Operation) (script : List (Attempt α)) (cancelled : Bool)
    (cancelAt : Option Nat) : Ending α :=
  let timers := cancelAt.toList.map fun due => (⟨due, 0, .cancel⟩ : Timer Event)
  let scene : Scene (State α) Unit Event :=
    { state := { operation, script, cancelled }, queue := [()], timers := timers }
  let scene := machine.play scene
  let result :=
    match scene.state.loop with
    | .ended result => result
    | .active _ => .error .cancelled
  ⟨result, scene.state.calls.reverse, scene.now, scene.state.lines⟩

end ResumableUpload.Rehearsal.Retrying
