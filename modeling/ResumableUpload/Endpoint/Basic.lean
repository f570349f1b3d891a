import ResumableUpload.Duration
import ResumableUpload.Text.Quoted

/-!
# Upload hosts

An upload host is known by its address. It was found by asking, taken as a fallback, or set for
good, and it is used for a limited time from the moment it was obtained. No two hosts are obtained
at the same moment.
-/

namespace ResumableUpload

/-- Where an upload host comes from. -/
inductive EndpointSource
  | dynamic
  | fallback
  /-- The server is never asked. -/
  | static
  deriving DecidableEq

def EndpointSource.key : EndpointSource → String
  | dynamic => "dynamic"
  | fallback => "fallback"
  | static => "static"

def EndpointSource.label : EndpointSource → String
  | dynamic => "Dynamic"
  | fallback => "Fallback"
  | static => "Static"

/-- An upload host. -/
structure Endpoint where
  baseUrl : String
  /-- When it was obtained, in nanoseconds. -/
  obtainedAt : Nat
  ttl : Duration
  source : EndpointSource
  deriving DecidableEq

namespace Endpoint

/-- The time for which a host is used is not over. -/
def isFresh (e : Endpoint) (now : Nat) : Bool := now - e.obtainedAt < e.ttl.nanos

/-- A host as shown in messages, the moment left out. -/
def shown (e : Endpoint) : String :=
  "Endpoint \x7b base_url: " ++ Text.quoted e.baseUrl ++ ", obtained_at: _, ttl: " ++ e.ttl.text
    ++ ", source: " ++ e.source.label ++ " \x7d"

end Endpoint

end ResumableUpload
