import ResumableUpload.Endpoint.Resolver
import ResumableUpload.Resume
import ResumableUpload.Session.Handle

/-!
# What sessions share

Sessions share the local files, the store of resume records, and the resolvers of their uploaders.
What a session does besides changing these is noted, in order: the lines it writes to the log, the
calls it makes, and the limits and waits it starts.
-/

namespace ResumableUpload.Session

/-- A call to the server. -/
inductive Call
  | locate (token : String)
  | precreate (token : String) (request : PrecreateRequest)
  | slice (baseUrl token : String) (request : SliceRequest)
  | create (token : String) (request : CreateRequest)

/-- What a session does besides changing what it shares. -/
inductive Note
  | line (l : LogLine)
  | call (c : Call)
  -- the call for a lookup is made
  | lookup (resolver : Nat) (l : Lookup)
  -- a limit starts to run
  | limit (d : Duration)
  -- a wait starts
  | pause (d : Duration)

def Note.lines (ls : List LogLine) : List Note := ls.map Note.line

/-- A reply to a call. -/
inductive Reply
  | precreate (r : PrecreateReply)
  | slice (r : SliceReply)
  | create (r : CreateReply)
  | fault (f : CallFault)
  -- the call stopped abnormally
  | crash (text : String)

/-- How a lookup ends for the caller that looks after it. -/
inductive LookupReply
  | outcome (o : LookupOutcome)
  -- the lookup stopped abnormally
  | crash (text : String)

/-- What reaches a task of a session. -/
inductive Signal
  -- it goes on, or has nothing but the chance to look at its token
  | go
  -- the reply to the call under way; the replying side may cancel sessions first
  | reply (r : Reply) (cancels : List Nat)
  -- the lookup it waits for ends; the replying side may cancel sessions first
  | lookup (r : LookupReply) (cancels : List Nat)
  -- the limit of the call under way has passed
  | limit
  -- the wait is over
  | wake

/-- Settings with a resolver. -/
structure Uploader where
  settings : Settings
  resolver : Nat
  deriving DecidableEq

/-- What sessions share. -/
structure World where
  files : Files := {}
  store : Resume.Store := {}
  resolvers : List Resolver := []
  uploaders : List Uploader := []
  handles : List Handle := []
  clock : Int := 0

def poisonedReport : String := "inner future panicked during poll"

namespace World

def isCancelled (w : World) (handle : Nat) : Bool :=
  match w.handles[handle]? with
  | some h => h.cancelled
  | none => false

def withHandle (w : World) (handle : Nat) (change : Handle → Handle × List LogLine) :
    World × List LogLine :=
  match w.handles[handle]? with
  | none => (w, [])
  | some h =>
    let (h, lines) := change h
    ({ w with handles := w.handles.set handle h }, lines)

def cancel (w : World) (handle : Nat) : World × List LogLine := w.withHandle handle Handle.cancel

def cancelAll (w : World) : List Nat → World × List LogLine
  | [] => (w, [])
  | handle :: rest =>
    let (w, lines) := w.cancel handle
    let (w, more) := w.cancelAll rest
    (w, lines ++ more)

def advance (w : World) (handle : Nat) (next : State) : World × List LogLine :=
  w.withHandle handle fun h => h.advance next

def setResolver (w : World) (resolver : Nat) (r : Resolver) : World :=
  { w with resolvers := w.resolvers.set resolver r }

def withResolver (w : World) (resolver : Nat) (change : Resolver → Resolver × List LogLine) :
    World × List LogLine :=
  match w.resolvers[resolver]? with
  | none => (w, [])
  | some r =>
    let (r, lines) := change r
    (w.setResolver resolver r, lines)

/-- What a caller has after a step, and what it notes. -/
structure Resolved where
  world : World
  resolution : Resolution
  notes : List Note

def ask (w : World) (resolver : Nat) (token : String) (c : Caller) : Resolved :=
  match w.resolvers[resolver]? with
  | none => ⟨w, .pending c, []⟩
  | some r =>
    let a := r.ask token c
    ⟨w.setResolver resolver a.resolver, a.resolution,
      Note.lines a.lines ++ a.located.toList.map (Note.lookup resolver)⟩

/-- The lookup that a caller waits for ends, and the caller has its result; if the lookup stops
abnormally, so does the caller. -/
def endLookup (w : World) (resolver lookup : Nat) : LookupReply → World × List LogLine
  | .outcome o => w.withResolver resolver fun r => r.conclude lookup o
  | .crash _ => w.withResolver resolver fun r => (r.poison lookup, [])

end World

end ResumableUpload.Session
