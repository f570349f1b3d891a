import ResumableUpload.Fault.Call
import ResumableUpload.Http.Address

/-!
# Requests and what comes back

A request goes to an address with a body that may be empty, a form, or one file. What comes back is
a reply with a status and a body, or there is no reply for one of a few reasons. A request without a
reply is a fault that names the address (`Outcome.fault?`).
-/

namespace ResumableUpload.Http

/-! ### Requests -/

/-- What a request is for. -/
inductive Method
  | get
  | post
  deriving DecidableEq

def Method.name : Method → String
  | get => "GET"
  | post => "POST"

/-- What a request carries. -/
inductive Body
  | empty
  | form (pairs : List (String × String))
  /-- One file in a form of several parts, between lines with the boundary. -/
  | file (boundary : String) (payload : ByteArray)

namespace Body

def contentType? : Body → Option String
  | empty => none
  | form _ => some "application/x-www-form-urlencoded"
  | file boundary _ => some ("multipart/form-data; boundary=" ++ boundary)

def bytes : Body → ByteArray
  | empty => .empty
  | form pairs => (Text.Percent.form pairs).toUTF8
  | file boundary payload =>
    ("--" ++ boundary ++ "\r\nContent-Disposition: form-data; name=\"file\"; filename=\"file\""
        ++ "\r\n\r\n").toUTF8
      ++ payload ++ ("\r\n--" ++ boundary ++ "--\r\n").toUTF8

end Body

/-- A request. -/
structure Request where
  method : Method
  address : Address
  body : Body

def Request.line (r : Request) : String := s!"{r.method.name} {r.address.target} HTTP/1.1"

/-! ### Outcomes -/

/-- What comes of a request. -/
inductive Outcome
  | reply (status : Status) (body : ByteArray)
  | truncated
  | closed
  | refused
  | late

namespace Outcome

def isBodiless (status : Status) : Bool := [101, 204, 304].contains status.code

def isInterim (status : Status) : Bool := status.code < 200 && status.code != 101

/-- What comes of a request to which a server writes one reply and ends the connection. -/
def ofReply (code : Nat) (body : ByteArray) (complete : Bool) : Outcome :=
  match Status.ofCode? code with
  | none => closed
  | some status =>
    if isInterim status then closed
    else if isBodiless status then reply status .empty
    else if complete then reply status body
    else truncated

def fault? (address : Address) : Outcome → Option CallFault
  | reply .. => none
  | truncated => some (.plain .malformedResponse "error decoding response body")
  | closed => some (.plain .connectionReset (unsent address))
  | refused => some (.plain .network (unsent address))
  | late => some (.plain .timeout (unsent address))
where
  unsent (address : Address) : String := s!"error sending request for url ({address.text})"

end Outcome

end ResumableUpload.Http
