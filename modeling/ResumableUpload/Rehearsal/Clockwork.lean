import ResumableUpload.Duration

/-!
# Rehearsals on a clock of their own

A rehearsal runs tasks on a clock that moves only when every task waits, and then straight to the
next timer. Nothing but waiting takes time. A task goes on until it waits; then the next woken task
has its turn, in the order of waking. Timers that are due at one moment come in the order of their
ranks, and of one rank in the order in which they were set.

What the tasks are, what their timers mean and which timers still matter is up to a `Machine`. Time
is counted in milliseconds.
-/

namespace ResumableUpload.Rehearsal

/-- Something that happens at a set time. -/
structure Timer (ε : Type) where
  due : Nat
  -- of two timers due at one moment the one of lower rank comes first
  rank : Nat
  event : ε

/-- Puts a timer after all that come no later. -/
def Timer.insert (t : Timer ε) : List (Timer ε) → List (Timer ε)
  | [] => [t]
  | u :: rest =>
    if u.due < t.due || (u.due == t.due && u.rank ≤ t.rank) then u :: insert t rest
    else t :: u :: rest

/-- The time at which a wait that starts now is over. A wait without end ends after thirty years,
and no time is later than the last one that can be counted. -/
def deadline (now : Nat) (d : Duration) : Nat :=
  if (1 <<< 63 - 1) * 1000000000 ≤ d.nanos then now + 946080000000
  else min (now + d.millisUp) (UInt64.size - 3)

/-- What a turn of a task brings about besides a new state. -/
structure Effects (τ ε : Type) where
  timers : List (Timer ε) := []
  wakes : List τ := []

/-- The rules of a rehearsal: `σ` is its state, `τ` its tasks, `ε` what timers stand for. -/
structure Machine (σ τ ε : Type) where
  isRunnable : σ → τ → Bool
  go : Nat → σ → τ → σ × Effects τ ε
  /-- The tasks that can take a timer up, in order; `none` stands for no task at all. -/
  takers : σ → ε → List (Option τ)
  keeps : σ → ε → Bool
  fire : Nat → σ → ε → Option τ → σ × Effects τ ε
  isDone : σ → Bool

/-- A rehearsal under way. -/
structure Scene (σ τ ε : Type) where
  state : σ
  now : Nat := 0
  -- the task whose turn it is
  current : Option τ := none
  -- tasks that wait for their turn
  queue : List τ := []
  timers : List (Timer ε) := []

namespace Machine

variable {σ τ ε : Type} [DecidableEq τ] (m : Machine σ τ ε)

/-- The scene after a turn: timers that matter no more are dropped, new ones are set. -/
def absorb (s : Scene σ τ ε) (turn : σ × Effects τ ε) : Scene σ τ ε :=
  let kept := s.timers.filter fun t => m.keeps turn.1 t.event
  { s with
    state := turn.1
    timers := turn.2.timers.foldl (fun timers t => t.insert timers) kept
    queue := s.queue ++ turn.2.wakes }

/-- The first timer that passes a test, and the others. -/
def pick (test : Timer ε → Bool) : List (Timer ε) → Option (Timer ε × List (Timer ε))
  | [] => none
  | t :: rest =>
    if test t then some (t, rest)
    else (pick test rest).map fun (found, others) => (found, t :: others)

/-- The current task goes on, takes up a timer that is due, or gives its turn away. -/
def stepCurrent (s : Scene σ τ ε) (t : τ) : Scene σ τ ε :=
  if m.isRunnable s.state t then m.absorb s (m.go s.now s.state t)
  else
    match pick (fun u => u.due ≤ s.now && (m.takers s.state u.event).contains (some t))
        s.timers with
    | some (u, others) =>
      m.absorb { s with timers := others } (m.fire s.now s.state u.event (some t))
    | none => { s with current := none }

/-- The next woken task has its turn; if there is none, the clock moves to the next timer that a
task can take up. Nothing is left to do if there is no such timer. -/
def stepNext (s : Scene σ τ ε) : Option (Scene σ τ ε) :=
  match s.queue with
  | t :: queue =>
    some (m.absorb { s with current := some t, queue := queue } (m.go s.now s.state t))
  | [] =>
    match pick (fun u => !(m.takers s.state u.event).isEmpty) s.timers with
    | none => none
    | some (u, others) =>
      let taker := (m.takers s.state u.event).head?.join
      let now := max s.now u.due
      some (m.absorb { s with now := now, current := taker, timers := others }
        (m.fire now s.state u.event taker))

/-- One step; nothing if there is nothing left to do. -/
def step (s : Scene σ τ ε) : Option (Scene σ τ ε) :=
  if m.isDone s.state then none
  else
    match s.current with
    | some t => some (m.stepCurrent s t)
    | none => m.stepNext s

/-- Takes steps until there is nothing left to do, `fuel` of them at most. -/
def run : Nat → Scene σ τ ε → Scene σ τ ε
  | 0, s => s
  | fuel + 1, s =>
    match m.step s with
    | some s => run fuel s
    | none => s

def enough : Nat := 1 <<< 40

def play (s : Scene σ τ ε) : Scene σ τ ε := m.run enough s

end Machine

end ResumableUpload.Rehearsal
