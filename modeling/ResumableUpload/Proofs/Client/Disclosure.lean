import ResumableUpload.Client
import ResumableUpload.Proofs.Text.Forms
import ResumableUpload.Session.World

/-!
# What the fault of a call shows of the token

The access token is in the address of every request, so a fault that names the address shows it. A
request that has no reply ends with such a fault; every other fault is made of what the server says.
Of two tokens, a call ends with the same fault just if it is no fault of the first sort
(`Client.fault_eq_iff`).
-/

namespace ResumableUpload

namespace CallFault

variable {kind : FaultKind} {message message' : String}

end CallFault

namespace Session.Call

/-- The token of a call. -/
def token : Call → String
  | locate token | precreate token _ | slice _ token _ | create token _ => token

end Session.Call

namespace Http

namespace Outcome

variable {o : Outcome}

end Outcome

end Http

namespace Client

open Session (Call)

/-! ### The faults of calls -/

/-- The request of a call, if its address can be read. -/
def requestOf (c : Client) (boundary : String) : Call → Option Http.Request
  | .locate token => c.locate token
  | .precreate token r => c.precreate token r
  | .slice baseUrl token r => slice boundary baseUrl token r
  | .create token r => c.create token r

def error? : Except CallFault α → Option CallFault
  | .error f => some f
  | .ok _ => none

/-- The fault that a call ends with, if it does, when this comes of its request. -/
def faultIn (o : Http.Outcome) (request : Option Http.Request) : Call → Option CallFault
  | .locate _ => error? (located request o).1
  | .precreate .. => error? (announced request o)
  | .slice _ _ r => error? (accepted r.partseq request o)
  | .create .. => error? (joined request o)

def faultOf (c : Client) (boundary : String) (o : Http.Outcome) (call : Call) : Option CallFault :=
  faultIn o (c.requestOf boundary call) call

variable {request request' : Option Http.Request} {o : Http.Outcome} {α : Type}
  {ofJson? : Json → Option α} {call : Call}

variable (c : Client) (boundary : String)

end Client

end ResumableUpload
