import ResumableUpload.Rehearsal.Clockwork
import ResumableUpload.Rehearsal.Script
import ResumableUpload.Session.Engine

/-!
# Rehearsal of sessions

Sessions at work with a server whose replies follow scripts. Announcements, lookups and requests
that join parts are answered one after the other; a part is answered by the first rule that fits its
number, the host, and how often it has been sent. A server may also be out of reach, so that every
call fails.
-/

namespace ResumableUpload.Rehearsal.Uploading

open Session

/-! ### The server -/

/-- A rule for the replies to parts. -/
structure Rule where
  index : Option Nat := none
  attempt : Option Nat := none
  base : Option String := none
  /-- The digest in the reply; none stands for the digest of the part. -/
  reply : Scripted (Option String)

/-- A server that cannot be reached. -/
structure Outage where
  /-- What is said when a call is made. -/
  notices : Call → List LogLine
  fault : Call → CallFault

def Outage.delay : Nat := 1

/-- What the server replies. -/
structure Script where
  outage : Option Outage := none
  locate : List (Scripted (List String)) := []
  precreate : List (Scripted PrecreateReply) := []
  /-- The reply to a request that joins parts; none stands for a reply that follows the request. -/
  create : List (Scripted (Option CreateReply)) := []
  slice : List Rule := []

/-- The server's reply to an announcement when nothing is written down. -/
def defaultPrecreate : PrecreateReply where
  errno := 0
  returnType := 1
  uploadId := "up-1"

/-- The server's reply to a request that joins parts when nothing is written down. -/
def defaultCreate (r : CreateRequest) : CreateReply where
  fsId := 9527
  path := r.path
  size := r.size
  md5 := "server-md5"

def Rule.fits (rule : Rule) (base : String) (r : SliceRequest) (attempt : Nat) : Bool :=
  rule.index.all (· == r.partseq) && rule.attempt.all (· == attempt) && rule.base.all (· == base)

/-- A call that was made. -/
structure Made where
  time : Nat
  token : String
  call : Call
  /-- How often the part has been sent, from one; zero for calls without a part. -/
  attempt : Nat

/-! ### The scene -/

/-- What timers stand for. -/
inductive Event
  | enter (run : Nat)
  | cancel (handle : Nat) (said : List LogLine)
  | reply (t : Task) (r : Reply) (cancels : List Nat)
  | limit (t : Task)
  | wake (t : Task)
  | lookup (resolver id : Nat) (r : LookupReply) (cancels : List Nat)
  | lookupLimit (resolver id : Nat)

/-- What is done to the sessions. -/
inductive Move
  | signal (t : Task) (s : Signal)
  | cancel (handle : Nat)

/-- Sessions at work with a scripted server. -/
structure State where
  engine : Engine := {}
  script : Script
  -- sessions that can be named by a number, in the order of the numbers
  numbered : List Nat := []
  -- the runs that are waited for
  awaited : List Nat := []
  locates : Nat := 0
  precreates : Nat := 0
  creates : Nat := 0
  -- how often each part was sent under each token
  slices : List ((String × Nat) × Nat) := []
  -- tasks in the order in which they came to wait for lookups
  waiters : List Task := []
  -- workers in the order in which they started on a part
  order : List Task := []
  -- the calls that were made, the last one first
  calls : List Made := []
  -- what was done to the sessions, the last move first
  moves : List Move := []
  lines : List LogLine := []

abbrev Turn := State × Effects Task Event

def replyOf (s : Scripted α) (ok : α → Reply) : Reply :=
  match s.crash, s.result with
  | some text, _ => .crash text
  | none, .ok v => ok v
  | none, .error f => .fault f

def lookupReplyOf (s : Scripted (List String)) : LookupReply :=
  match s.crash, s.result with
  | some text, _ => .crash text
  | none, .ok addresses => .outcome (.servers addresses)
  | none, .error f => .outcome (.fault f)

def cancelsOf (s : State) (r : Scripted α) : List Nat :=
  (r.cancels.bind fun n => s.numbered[n]?).toList

def replyTimer (now : Nat) (s : State) (t : Task) (r : Scripted α) (ok : α → Reply) :
    Timer Event :=
  ⟨now + r.delay, 1, .reply t (replyOf r ok) (cancelsOf s r)⟩

def sentBefore (s : State) (token : String) (partseq : Nat) : Nat :=
  ((s.slices.find? (·.1 == (token, partseq))).map (·.2)).getD 0

def made (now : Nat) (s : State) (token : String) (call : Call) (attempt : Nat) : State :=
  { s with calls := ⟨now, token, call, attempt⟩ :: s.calls }

def say (s : State) (lines : List LogLine) : State := { s with lines := s.lines ++ lines }

def tokenOf : Call → String
  | .locate token | .precreate token _ | .slice _ token _ | .create token _ => token

def vainCall (now : Nat) (s : State) (o : Outage) (t : Task) (c : Call) :
    State × List (Timer Event) :=
  (say (made now s (tokenOf c) c 0) (o.notices c),
    [⟨now + Outage.delay, 1, .reply t (.fault (o.fault c)) []⟩])

def scriptedCall (now : Nat) (s : State) (t : Task) (c : Call) : State × List (Timer Event) :=
  match c with
  | .locate token => (made now s token c 0, [])
  | .precreate token _ =>
    let r := (replyAt? s.script.precreate s.precreates).getD { result := .ok defaultPrecreate }
    (made now { s with precreates := s.precreates + 1 } token c 0,
      [replyTimer now s t r Reply.precreate])
  | .slice base token request =>
    let attempt := sentBefore s token request.partseq + 1
    let key := (token, request.partseq)
    let slices := (key, attempt) :: s.slices.filter (·.1 != key)
    let r :=
      match s.script.slice.find? fun rule => rule.fits base request attempt with
      | some rule => rule.reply
      | none => { result := .ok none }
    (made now { s with slices := slices } token c attempt,
      [replyTimer now s t r fun md5 =>
        .slice { md5 := md5.getD (Digest.md5 request.payload) }])
  | .create token request =>
    let r := (replyAt? s.script.create s.creates).getD { result := .ok none }
    (made now { s with creates := s.creates + 1 } token c 0,
      [replyTimer now s t r fun reply => .create (reply.getD (defaultCreate request))])

def call (now : Nat) (s : State) (t : Task) (c : Call) : State × List (Timer Event) :=
  match s.script.outage with
  | some o => vainCall now s o t c
  | none => scriptedCall now s t c

def lookupTimer (now : Nat) (s : State) (resolver : Nat) (l : Lookup) : Timer Event :=
  match s.script.outage with
  | some o =>
    ⟨now + Outage.delay, 1,
      .lookup resolver l.id (.outcome (.fault (o.fault (.locate l.token)))) []⟩
  | none =>
    let r := (replyAt? s.script.locate s.locates).getD
      { result := .ok ["https://c.pcs.example.com"] }
    ⟨now + r.delay, 1, .lookup resolver l.id (lookupReplyOf r) (cancelsOf s r)⟩

def askServer (now : Nat) (s : State) (resolver : Nat) (l : Lookup) :
    State × List (Timer Event) :=
  let limit :=
    match s.engine.world.resolvers[resolver]? with
    | some r => deadline now r.settings.lookupTimeout
    | none => now
  let timers := [lookupTimer now s resolver l, ⟨limit, 2, .lookupLimit resolver l.id⟩]
  let said := (s.script.outage.map fun o => o.notices (.locate l.token)).getD []
  (say (made now { s with locates := s.locates + 1 } l.token (.locate l.token) 0) said, timers)

def absorbNote (now : Nat) (t : Task) (acc : State × List (Timer Event)) (n : Note) :
    State × List (Timer Event) :=
  let (s, timers) := acc
  match n with
  | .line l => (say s [l], timers)
  | .call c =>
    let (s, more) := call now s t c
    (s, timers ++ more)
  | .lookup resolver l =>
    let (s, more) := askServer now s resolver l
    (s, timers ++ more)
  | .limit d => (s, timers ++ [⟨deadline now d, 3, .limit t⟩])
  | .pause d => (s, timers ++ [⟨deadline now d, 1, .wake t⟩])

/-- The tasks of a session, its workers in the order in which they started on their parts. -/
def tasksOf (s : State) (handle : Nat) : List Task :=
  (s.engine.runsOf handle).flatMap fun run =>
    ⟨run, none⟩ :: s.order.filter fun t => t.run == run

/-- Puts a task at the end of a list. -/
def moveToEnd (t : Task) (ts : List Task) : List Task := ts.filter (· != t) ++ [t]

def signal (now : Nat) (s : State) (t : Task) (sig : Signal) : Turn :=
  let workersBefore := s.engine.workers t.run
  let (engine, notes) := s.engine.signal t sig
  let s := { s with engine := engine, moves := .signal t sig :: s.moves }
  let (s, timers) := notes.foldl (absorbNote now t) (s, [])
  let cancelled := sig.cancels.flatMap (tasksOf s)
  let started := if workersBefore.isEmpty then engine.workers t.run else []
  match engine.wait t with
  | .file =>
    ({ s with order := moveToEnd t s.order },
      { timers := timers, wakes := t :: started ++ cancelled })
  | .lookup _ _ =>
    let waiters := if s.waiters.contains t then s.waiters else s.waiters ++ [t]
    ({ s with waiters := waiters }, { timers := timers, wakes := started ++ cancelled })
  | .done =>
    let main := if t.worker.isSome then [({ t with worker := none } : Task)] else []
    ({ s with waiters := s.waiters.filter (· != t) },
      { timers := timers, wakes := main ++ cancelled })
  | _ =>
    ({ s with waiters := s.waiters.filter (· != t) },
      { timers := timers, wakes := started ++ cancelled })

/-- The tasks that wait for a lookup and do not notice that they were cancelled. -/
def waitersOf (s : State) (resolver id : Nat) : List Task :=
  s.waiters.filter fun t =>
    s.engine.wait t == .lookup resolver id && !s.engine.noticesCancel t

def endLookup (now : Nat) (s : State) (t : Task) (resolver id : Nat) (r : LookupReply)
    (cancels : List Nat) : Turn :=
  let others := (waitersOf s resolver id).filter (· != t)
  let (s, effects) := signal now s t (.lookup r cancels)
  (s, { effects with wakes := effects.wakes ++ others })

def fire (now : Nat) (s : State) (e : Event) (taker : Option Task) : Turn :=
  match e, taker with
  | .enter run, _ => signal now s ⟨run, none⟩ .go
  | .cancel handle said, _ =>
    let (engine, lines) := s.engine.cancel handle
    let s := say { s with engine := engine, moves := .cancel handle :: s.moves } (said ++ lines)
    (s, { wakes := tasksOf s handle })
  | .reply t r cancels, _ => signal now s t (.reply r cancels)
  | .limit t, _ => signal now s t .limit
  | .wake t, _ => signal now s t .wake
  | .lookup resolver id r cancels, some t => endLookup now s t resolver id r cancels
  | .lookupLimit resolver id, some t => endLookup now s t resolver id (.outcome .late) []
  | _, none => (s, {})

def isAsking (s : State) (resolver id : Nat) : Bool :=
  match s.engine.world.resolvers[resolver]? with
  | some r => r.isAsking id
  | none => false

def machine : Machine State Task Event where
  isRunnable s t :=
    match s.engine.wait t with
    | .none => true
    | .reply | .pause => s.engine.noticesCancel t
    | .lookup resolver id =>
      s.engine.noticesCancel t
        || (s.engine.world.resolvers[resolver]?).any fun r => r.hasNews id
    | .file | .workers | .done => false
  go now s t := signal now s t .go
  takers s e :=
    match e with
    | .enter run => [some ⟨run, none⟩]
    | .cancel .. => [none]
    | .reply t _ _ | .limit t | .wake t => [some t]
    | .lookup resolver id _ _ | .lookupLimit resolver id => (waitersOf s resolver id).map some
  keeps s e :=
    match e with
    | .enter _ | .cancel .. => true
    | .reply t _ _ => s.engine.wait t == .reply
    | .limit t => s.engine.isLimited t
    | .wake t => s.engine.wait t == .pause
    | .lookup resolver id _ _ | .lookupLimit resolver id => isAsking s resolver id
  fire := fire
  isDone s := s.awaited.all fun run => (s.engine.ending? run).isSome

abbrev Stage := Scene State Task Event

/-! ### What can be done -/

def start (script : Script) (files : Files) (store : Resume.Store) (settings : Settings) : Stage :=
  let (engine, _) := ({ world := { files := files, store := store } } : Engine).addUploader settings
  { state := { engine := engine, script := script } }

def change (s : Stage) (f : Engine → Engine × List LogLine) : Stage :=
  let (engine, lines) := f s.state.engine
  { s with state := say { s.state with engine := engine } lines }

def changeWorld (s : Stage) (f : World → World × List LogLine) : Stage :=
  change s fun e =>
    let (w, lines) := f e.world
    ({ e with world := w }, lines)

def makeSession (s : Stage) (id : String) (uploader : Nat) (target : Target) : Stage × Nat :=
  let (engine, handle, lines) := s.state.engine.start id uploader target
  ({ s with state := say { s.state with engine := engine } lines }, handle)

def number (s : Stage) (handle : Nat) : Stage :=
  { s with state := { s.state with numbered := s.state.numbered ++ [handle] } }

/-- A run to come. -/
structure Start where
  handle : Nat
  after : Nat := 0
  cancelAfter : Option Nat := none

/-- A scene with runs about to start. The numbers of the runs are handed back. -/
def launch (s : Stage) (starts : List Start) : Stage × List Nat :=
  let first := s.state.engine.runs.length
  let engine := starts.foldl (fun e start => (e.run start.handle).1) s.state.engine
  let runs := (List.range starts.length).map (first + ·)
  let lookups := s.timers.filter fun t =>
    match t.event with
    | .lookup .. | .lookupLimit .. => true
    | _ => false
  let paired := starts.zip runs
  let timers : List (Timer Event) := paired.flatMap fun (start, run) =>
    (if start.after = 0 then [] else [⟨s.now + start.after, 0, Event.enter run⟩])
      ++ start.cancelAfter.toList.map fun after =>
        ⟨s.now + after, 0, Event.cancel start.handle []⟩
  ({ s with
    state := { s.state with engine := engine, awaited := runs }
    current := none
    queue := paired.filterMap fun (start, run) =>
      if start.after = 0 then some ⟨run, none⟩ else none
    timers := timers.foldl (fun timers t => t.insert timers) lookups }, runs)

/-- Runs start, and each one comes to an end. The numbers of the runs are handed back. -/
def runAll (s : Stage) (starts : List Start) : Stage × List Nat :=
  let (scene, runs) := launch s starts
  (machine.play scene, runs)

/-- Plays on until a line of the log passes a test; nothing is left to do if none does. -/
def playUntilSaid (s : Stage) (test : LogLine → Bool) : Stage :=
  Machine.play { machine with isDone := fun s => machine.isDone s || s.lines.any test } s

/-- A session is cancelled some time from now, after some lines have been said. -/
def cancelLater (s : Stage) (handle after : Nat) (said : List LogLine) : Stage :=
  { s with timers := Timer.insert ⟨s.now + after, 0, .cancel handle said⟩ s.timers }

def ending? (s : Stage) (run : Nat) : Option Engine.Ending := s.state.engine.ending? run

def pass (s : Stage) (millis : Nat) : Stage := { s with now := s.now + millis }

def takeCalls (s : Stage) : List Made × Stage :=
  (s.state.calls.reverse, { s with state := { s.state with calls := [] } })

end ResumableUpload.Rehearsal.Uploading
