import ResumableUpload.Client
import ResumableUpload.Rehearsal.Session

/-!
# The session of the program

The program runs one session, and its calls go over the web. While the session runs things happen to
it (`Happening`): its tasks go on, requests come out one way or another, waits are over, the program
is interrupted, time passes. What the session makes of each is `Sitting.meet`. In what order things
happen, what the server answers, and when the program is interrupted is open.

If there is no way to the server, every request is refused, and the waits between attempts pass on a
clock of their own (`withoutServer`).
-/

namespace ResumableUpload.CommandLine

open Session

/-! ### The way to the server -/

def request (c : Client) : Call → Option Http.Request
  | .locate token => c.locate token
  | .precreate token r => c.precreate token r
  | .slice base token r => Client.slice "" base token r
  | .create token r => c.create token r

/-- What is said when a call is made. -/
def notices : Call → List LogLine
  | .locate _ => [Client.locateNotice]
  | .precreate _ r => [Client.precreateNotice r]
  | .slice .. => []
  | .create _ r => [Client.createNotice r]

def replied (ok : α → Reply) : Except CallFault α → Signal
  | .ok v => .reply (ok v) []
  | .error f => .reply (.fault f) []

def lookedUp : Except CallFault (List String) → Signal
  | .ok addresses => .lookup (.outcome (.servers addresses)) []
  | .error f => .lookup (.outcome (.fault f)) []

/-- What the task that waits for a call gets when its request has come out, and what is said of
it. -/
def received (c : Client) (call : Call) (o : Http.Outcome) : Signal × List LogLine :=
  match call with
  | .locate _ =>
    let (hosts, lines) := Client.located (request c call) o
    (lookedUp hosts, lines)
  | .precreate .. => (replied .precreate (Client.announced (request c call) o), [])
  | .slice _ _ r => (replied .slice (Client.accepted r.partseq (request c call) o), [])
  | .create .. => (replied .create (Client.joined (request c call) o), [])

/-! ### The session -/

/-- Something that happens to the session. Its tasks are the run and the workers of the run. -/
inductive Happening
  -- a task goes on
  | go (worker : Option Nat)
  -- the request that a task waits for has come out
  | outcome (worker : Option Nat) (o : Http.Outcome)
  -- the limit of the lookup that a task waits for has passed
  | lookupLate (worker : Option Nat)
  -- the limit of the call of a task has passed
  | limit (worker : Option Nat)
  -- the pause of a task is over
  | wake (worker : Option Nat)
  | interrupt
  -- the clock shows another time
  | clock (now : Int)
  -- time passes for the kept host
  | pass (nanos : Nat)

/-- The session at work, and what was said so far. -/
structure Sitting where
  engine : Engine
  lines : List LogLine := []
  interrupted : Bool := false

/-- What is said when the program is interrupted. -/
def interruptNotice : LogLine := .warn "收到中断信号，正在取消上传..."

/-- What is said of a note. -/
def noticesOf : Note → List LogLine
  | .line l => [l]
  | .call c => notices c
  | .lookup _ l => notices (.locate l.token)
  | .limit _ | .pause _ => []

/-- The lookup that is under way. -/
def lookup? (e : Engine) (resolver id : Nat) : Option Lookup :=
  e.world.resolvers[resolver]?.bind fun r =>
    r.inflight.filter fun l => l.id == id && l.stage == .asking

namespace Sitting

/-- A task takes a step. -/
def signal (s : Sitting) (worker : Option Nat) (sig : Signal) : Sitting :=
  let (engine, notes) := s.engine.signal ⟨0, worker⟩ sig
  { s with engine := engine, lines := s.lines ++ notes.flatMap noticesOf }

/-- The call that a task waits for. One that was cancelled waits for no lookup any more. -/
def call? (s : Sitting) (worker : Option Nat) : Option Call :=
  match s.engine.wait ⟨0, worker⟩ with
  | .reply => do
    let r ← s.engine.runs[0]?
    let setup ← Engine.setup? s.engine.world r.handle
    setup.underWay worker r.stage
  | .lookup resolver id =>
    if s.engine.noticesCancel ⟨0, worker⟩ then none
    else (lookup? s.engine resolver id).map fun l => .locate l.token
  | _ => none

def receive (s : Sitting) (worker : Option Nat) (o : Http.Outcome) : Sitting :=
  match s.call? worker with
  | none => s
  | some call =>
    let (sig, lines) := received {} call o
    { s with lines := s.lines ++ lines }.signal worker sig

/-- The session is cancelled, when the program is interrupted for the first time. -/
def interrupt (s : Sitting) : Sitting :=
  if s.interrupted then s
  else
    let (engine, lines) := s.engine.cancel 0
    { engine := engine, lines := s.lines ++ interruptNotice :: lines, interrupted := true }

def changeWorld (s : Sitting) (change : World → World) : Sitting :=
  { s with engine := { s.engine with world := change s.engine.world } }

/-- The session after something has happened to it. -/
def meet (s : Sitting) : Happening → Sitting
  | .go worker => s.signal worker .go
  | .outcome worker o => s.receive worker o
  | .lookupLate worker => s.signal worker (.lookup (.outcome .late) [])
  | .limit worker => s.signal worker .limit
  | .wake worker => s.signal worker .wake
  | .interrupt => s.interrupt
  | .clock now => s.changeWorld fun w => { w with clock := now }
  | .pass nanos =>
    s.changeWorld fun w => (w.withResolver 0 fun r => ({ r with now := r.now + nanos }, [])).1

end Sitting

/-! ### Without a server -/

/-- How a call fails when there is no way to the server. -/
def fault (c : Client) (call : Call) : CallFault :=
  (Client.fault? (request c call) .refused).getD (.plain .network "")

def outage (c : Client) : Rehearsal.Uploading.Outage := ⟨notices, fault c⟩

def interruptDelay : Nat := 150

/-- What happens to the session of a program without a way to the server. -/
def Happening.ofMove : Rehearsal.Uploading.Move → Happening
  | .signal t .go => .go t.worker
  | .signal t (.reply ..) => .outcome t.worker .refused
  | .signal t (.lookup (.outcome .late) _) => .lookupLate t.worker
  | .signal t (.lookup ..) => .outcome t.worker .refused
  | .signal t .limit => .limit t.worker
  | .signal t .wake => .wake t.worker
  | .cancel _ => .interrupt

/-- The whole course of a session without a way to the server. The program is interrupted some time
after a line was said that passes a test. -/
def withoutServer (interrupts : LogLine → Bool) (s : Sitting) : List Happening :=
  let stage : Rehearsal.Uploading.Stage := {
    state := {
      engine := s.engine
      script := { outage := some (outage {}) }
      awaited := [0]
      lines := s.lines }
    queue := [⟨0, none⟩] }
  let stage := Rehearsal.Uploading.playUntilSaid stage interrupts
  let stage :=
    if stage.state.lines.any interrupts then
      Rehearsal.Uploading.cancelLater stage 0 interruptDelay [interruptNotice]
    else stage
  (Rehearsal.Uploading.machine.play stage).state.moves.reverse.map .ofMove

end ResumableUpload.CommandLine
