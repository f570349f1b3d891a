/-!
# Kinds of fault

Every failed call to the server is put under one kind. Whether the call is tried again depends on
the kind alone, never on the wording of a message. The kind is found from the status of the reply
or from the error number inside it.
-/

namespace ResumableUpload

/-- What went wrong with a call. -/
inductive FaultKind
  | timeout
  | network
  | connectionReset
  | serverError
  | rateLimited
  | unauthorized
  /-- The account may not do this. -/
  | forbidden
  | badRequest
  | quotaExceeded
  | fileNotFound
  | malformedResponse
  | endpointUnavailable
  | cancelled
  | unknown
  deriving DecidableEq

namespace FaultKind

def all : List FaultKind :=
  [timeout, network, connectionReset, serverError, rateLimited, unauthorized, forbidden,
    badRequest, quotaExceeded, fileNotFound, malformedResponse, endpointUnavailable, cancelled,
    unknown]

theorem mem_all (k : FaultKind) : k ∈ all := by cases k <;> decide

def key : FaultKind → String
  | timeout => "timeout"
  | network => "network"
  | connectionReset => "connection_reset"
  | serverError => "server_error"
  | rateLimited => "rate_limited"
  | unauthorized => "unauthorized"
  | forbidden => "forbidden"
  | badRequest => "bad_request"
  | quotaExceeded => "quota_exceeded"
  | fileNotFound => "file_not_found"
  | malformedResponse => "malformed_response"
  | endpointUnavailable => "endpoint_unavailable"
  | cancelled => "cancelled"
  | unknown => "unknown"

def label : FaultKind → String
  | timeout => "Timeout"
  | network => "Network"
  | connectionReset => "ConnectionReset"
  | serverError => "ServerError"
  | rateLimited => "RateLimited"
  | unauthorized => "Unauthorized"
  | forbidden => "Forbidden"
  | badRequest => "BadRequest"
  | quotaExceeded => "QuotaExceeded"
  | fileNotFound => "FileNotFound"
  | malformedResponse => "MalformedResponse"
  | endpointUnavailable => "EndpointUnavailable"
  | cancelled => "Cancelled"
  | unknown => "Unknown"

def ofKey? (s : String) : Option FaultKind := all.find? fun k => k.key == s

/-- What to do after a fault. -/
inductive Disposition
  | retry
  | fatal
  deriving DecidableEq

def disposition : FaultKind → Disposition
  | timeout | network | connectionReset | serverError | rateLimited => .retry
  | unauthorized | forbidden | badRequest | quotaExceeded | fileNotFound | malformedResponse
  | endpointUnavailable | cancelled | unknown => .fatal

def isRetriable (k : FaultKind) : Bool := k.disposition == .retry

/-- The address itself may have gone bad. -/
def isConnectionClass : FaultKind → Bool
  | timeout | network | connectionReset => true
  | _ => false

def ofStatus (code : Nat) : FaultKind :=
  if code = 429 then rateLimited
  else if code = 401 then unauthorized
  else if code = 403 then forbidden
  else if code = 404 then fileNotFound
  else if 400 ≤ code ∧ code ≤ 499 then badRequest
  else if 500 ≤ code ∧ code ≤ 599 then serverError
  else unknown

def ofErrno (n : Int) : FaultKind :=
  if n ∈ [-6, 110, 111, 31045] then unauthorized
  else if n = -10 then quotaExceeded
  else if n ∈ [2, -7, 31299, 31363, 31364] then badRequest
  else if n = 31034 then rateLimited
  else if n ∈ [-9, 31190] then fileNotFound
  else if n ∈ [10, 31352, 31353] then serverError
  else unknown

theorem isConnectionClass_retriable {k : FaultKind} (h : k.isConnectionClass = true) :
    k.isRetriable = true := by
  cases k <;> first | rfl | cases h

end FaultKind

end ResumableUpload
