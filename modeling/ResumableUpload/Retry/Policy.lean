import ResumableUpload.Duration
import ResumableUpload.Fault.Kind

/-!
# How long to wait before trying again

The wait doubles from one retry to the next, from a base up to a bound. A rate limit makes the wait
the longest one at once. With jitter the wait is moved by a random amount of at most a quarter
either way, in whole milliseconds.
-/

namespace ResumableUpload.Retry

/-- How often and after what waits a call is tried again. -/
structure Policy where
  maxRetries : Nat := 3
  baseWait : Duration := .ofSeconds 1
  maxWait : Duration := .ofSeconds 5
  attemptTimeout : Duration := .ofSeconds 1800
  /-- Waits are moved by a random amount. -/
  jitter : Bool := false

/-- The number by which the base wait is multiplied: powers of two that fit 32 bits, and the
largest number of 32 bits after them. -/
def factor (retry : Nat) : Nat :=
  if retry < 32 then 1 <<< retry else UInt32.size - 1

namespace Policy

/-- The wait before a retry, counted from zero, without jitter. -/
def steadyWait (p : Policy) (retry : Nat) (kind : FaultKind) : Duration :=
  if kind = .rateLimited then p.maxWait
  else (p.baseWait.times (factor retry)).shorter p.maxWait

/-- A wait moved by a quarter of itself at most, as the random word `noise` says. Waits under four
milliseconds stay as they are. -/
def jittered (wait : Duration) (noise : Nat) : Duration :=
  let millis := wait.millis % UInt64.size
  let quarter := millis / 4
  if quarter = 0 then wait
  else .ofMillis (min (millis - quarter + noise % (quarter * 2)) (UInt64.size - 1))

/-- The wait before a retry, counted from zero, after a fault of the given kind. -/
def backoff (p : Policy) (retry : Nat) (kind : FaultKind) (noise : Nat) : Duration :=
  let wait := p.steadyWait retry kind
  if p.jitter ∧ kind ≠ .rateLimited then jittered wait noise else wait

end Policy

end ResumableUpload.Retry
