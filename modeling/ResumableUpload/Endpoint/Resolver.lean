import ResumableUpload.Endpoint.Basic
import ResumableUpload.Fault.Call
import ResumableUpload.Log
import ResumableUpload.Message
import ResumableUpload.Settings

/-!
# The search for an upload host

Several callers share one resolver. It keeps the host that was found last; while that is fresh every
caller gets it. Otherwise one lookup is made, however many callers there are: the first caller makes
it, the others join it, and all get its result. A lookup goes on only while a caller waits for it.

A host is dropped when three connections in a row have failed with it; a success starts the count
again. The count is one for all hosts.

A step of a caller (`ask`) is what happens between two moments at which another caller may come in
between: a look at the kept host, then, with the lookup held, another look and the choice to join or
to make a lookup.
-/

namespace ResumableUpload

/-- The longest time for which a fallback address is used. -/
def fallbackTtl : Duration := .ofSeconds 60

/-- How many failures in a row make a host stale. -/
def staleThreshold : Nat := 3

/-- How far a lookup has come. -/
inductive LookupStage
  -- nobody has waited for it yet
  | created
  -- the server has been asked
  | asking
  -- it stopped abnormally and will never end
  | poisoned
  deriving DecidableEq

/-- A lookup that has not ended. -/
structure Lookup where
  id : Nat
  token : String
  stage : LookupStage
  deriving DecidableEq

/-- How a lookup ends. -/
inductive LookupOutcome
  | servers (addresses : List String)
  | fault (f : CallFault)
  | late

/-- The state that callers share. -/
structure Resolver where
  settings : EndpointSettings
  cache : Option Endpoint := none
  inflight : Option Lookup := none
  failures : Nat := 0
  /-- The present moment, in nanoseconds. -/
  now : Nat := 0
  nextLookup : Nat := 0
  results : List (Nat × Except String Endpoint) := []

/-- How far a caller has come. -/
inductive Caller
  | entering
  -- no fresh host was kept
  | missed
  -- the caller waits for a lookup
  | waiting (lookup : Nat)
  deriving DecidableEq

/-- What a caller has after a step. -/
inductive Resolution
  | pending (c : Caller)
  | done (result : Except String Endpoint)
  -- the lookup that the caller waits for stopped abnormally
  | poisoned

/-- A step of a caller. -/
structure Asked where
  resolution : Resolution
  resolver : Resolver
  lines : List LogLine := []
  located : Option Lookup := none

namespace Resolver

/-- The kept host, if it is fresh. -/
def cached (r : Resolver) : Option Endpoint := r.cache.filter fun e => e.isFresh r.now

def obtain (r : Resolver) (url : String) (ttl : Duration) (source : EndpointSource) :
    Endpoint × Resolver :=
  (⟨url, r.now + 1, ttl, source⟩, { r with now := r.now + 1 })

/-- How a lookup ended, if it has. -/
def result? (r : Resolver) (lookup : Nat) : Option (Except String Endpoint) :=
  (r.results.find? (·.1 == lookup)).map (·.2)

/-- A lookup has something for a caller that waits for it: it has ended, it stopped abnormally, or
nobody has looked after it yet. -/
def hasNews (r : Resolver) (lookup : Nat) : Bool :=
  (r.result? lookup).isSome || r.inflight.any fun l => l.id == lookup && l.stage != .asking

def isAsking (r : Resolver) (lookup : Nat) : Bool :=
  r.inflight.any fun l => l.id == lookup && l.stage == .asking

/-! ### Callers -/

def enter (r : Resolver) : Asked :=
  if !r.settings.dynamic then
    let (e, r) := r.obtain r.settings.fallbackUrl .longest .static
    ⟨.done (.ok e), r, [], none⟩
  else
    match r.cached with
    | some e => ⟨.done (.ok e), r, [], none⟩
    | none => ⟨.pending .missed, r, [], none⟩

/-- A caller that found no fresh host joins a lookup or makes one. -/
def join (r : Resolver) (token : String) : Asked :=
  match r.cached, r.inflight with
  | some e, _ => ⟨.done (.ok e), r, [], none⟩
  | none, some l => ⟨.pending (.waiting l.id), r, [.debug "加入进行中的上传地址解析"], none⟩
  | none, none =>
    let l : Lookup := ⟨r.nextLookup, token, .created⟩
    ⟨.pending (.waiting l.id), { r with inflight := some l, nextLookup := r.nextLookup + 1 }, [],
      none⟩

/-- A caller looks after the lookup it waits for. The first one to do so asks the server. -/
def attend (r : Resolver) (lookup : Nat) : Asked :=
  match r.result? lookup, r.inflight with
  | some result, _ => ⟨.done result, r, [], none⟩
  | none, some l =>
    if l.id = lookup then
      match l.stage with
      | .created =>
        ⟨.pending (.waiting lookup), { r with inflight := some { l with stage := .asking } }, [],
          some l⟩
      | .asking => ⟨.pending (.waiting lookup), r, [], none⟩
      | .poisoned => ⟨.poisoned, r, [], none⟩
    else ⟨.pending (.waiting lookup), r, [], none⟩
  | none, none => ⟨.pending (.waiting lookup), r, [], none⟩

def ask (r : Resolver) (token : String) : Caller → Asked
  | .entering => r.enter
  | .missed => r.join token
  | .waiting lookup => r.attend lookup

/-! ### Lookups -/

def found (s : EndpointSettings) : LookupOutcome → Except String String
  | .servers addresses =>
    match addresses.find? LocateReply.isSecure with
    | some url => .ok url
    | none => .error "locateupload 未返回 https 上传地址"
  | .fault f => .error f.text
  | .late => .error s!"获取上传地址超时 ({s.lookupTimeout.text})"

def conclusion (r : Resolver) (o : LookupOutcome) :
    Except String Endpoint × Resolver × List LogLine :=
  match found r.settings o with
  | .ok url =>
    let (e, r) := r.obtain url r.settings.ttl .dynamic
    (.ok e, r, [.info s!"获取上传地址成功: {url}"])
  | .error detail =>
    if r.settings.allowFallback then
      let url := r.settings.fallbackUrl
      let (e, r) := r.obtain url (r.settings.ttl.shorter fallbackTtl) .fallback
      (.ok e, r, [.warn s!"获取上传地址失败，使用备用地址 {url}: {detail}"])
    else (.error detail, r, [.warn s!"获取上传地址失败，且未允许使用备用地址: {detail}"])

/-- A lookup ends: a host that it gives is kept, and the way is free for the next lookup. -/
def conclude (r : Resolver) (lookup : Nat) (o : LookupOutcome) : Resolver × List LogLine :=
  match r.inflight with
  | none => (r, [])
  | some l =>
    if l.id = lookup ∧ l.stage = .asking then
      let (result, r, lines) := r.conclusion o
      let r := { r with results := (lookup, result) :: r.results, inflight := none }
      match result with
      | .ok e => ({ r with cache := some e, failures := 0 }, lines)
      | .error _ => (r, lines)
    else (r, [])

def poison (r : Resolver) (lookup : Nat) : Resolver :=
  { r with inflight := r.inflight.map fun l =>
      if l.id = lookup then { l with stage := .poisoned } else l }

/-! ### Reports -/

def invalidate (r : Resolver) : Resolver × List LogLine :=
  ({ r with cache := none, failures := 0 },
    if r.cache.isSome then [.info "上传地址缓存已失效"] else [])

/-- Two hosts are the same: one address, obtained at one moment. -/
def isSame (a b : Endpoint) : Bool := a.baseUrl == b.baseUrl && a.obtainedAt == b.obtainedAt

def reportFailure (r : Resolver) (e : Endpoint) : Resolver × List LogLine :=
  let failures := r.failures + 1
  if failures < staleThreshold then ({ r with failures := failures }, [])
  else if r.cache.any (isSame · e) then
    ({ r with cache := none, failures := 0 },
      [.warn s!"上传地址 {e.baseUrl} 连续失败 {failures} 次，重新获取"])
  else ({ r with failures := 0 }, [])

def reportSuccess (r : Resolver) : Resolver := { r with failures := 0 }

def shown (r : Resolver) : String :=
  let cached :=
    match r.cached with
    | some e => "Some(" ++ e.shown ++ ")"
    | none => "None"
  "EndpointResolver \x7b settings: " ++ r.settings.shown ++ ", cached: " ++ cached ++ " \x7d"

end Resolver

end ResumableUpload
