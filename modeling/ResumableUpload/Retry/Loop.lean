import ResumableUpload.Log
import ResumableUpload.Retry.Failure
import ResumableUpload.Retry.Policy

/-!
# Retried calls

A retried call makes an attempt, waits after a transient fault, and makes the next one, until an
attempt gives a value, fails for good, or no retry is left. Each attempt has a limit; one that
passes it has failed with a fault of kind `timeout`. Before each attempt, while an attempt is under
way and during a wait the call can be cancelled, and that goes before anything else that happens at
the same moment.

The call is a machine (`Loop.step`): what an attempt does is not its concern, only how it ends.
-/

namespace ResumableUpload.Retry

/-- How an attempt ended. -/
inductive Outcome (α : Type)
  | value (a : α)
  | fault (f : CallFault)
  -- the attempt passed its limit
  | late

/-- What a retried call that goes on does now. Attempts are counted from zero. -/
inductive Stage
  -- attempt `n` comes next
  | ready (n : Nat)
  -- attempt `n` is under way
  | attempting (n : Nat)
  -- attempt `n` failed, and the next one waits
  | pausing (n : Nat) (wait : Duration)
  deriving DecidableEq

/-- A retried call. -/
inductive Loop (α : Type)
  | active (stage : Stage)
  | ended (result : Except Failure α)

/-- What reaches a retried call. -/
inductive Signal (α : Type)
  -- nothing but the chance to look at the token
  | look
  -- the attempt under way ended
  | outcome (o : Outcome α)
  -- the wait is over
  | wake

/-- What is retried: its name in messages, and how it is retried. -/
structure Operation where
  name : String
  policy : Policy := {}

namespace Operation

def lateFault (op : Operation) : CallFault :=
  .plain .timeout s!"请求超时 ({op.policy.attemptTimeout.text})"

/-- What comes after attempt `n` failed. -/
def afterFault (op : Operation) (noise n : Nat) (f : CallFault) : Loop α × List LogLine :=
  if !f.isRetriable then (.ended (.error (.fatal (n + 1) f)), [])
  else if op.policy.maxRetries ≤ n then (.ended (.error (.exhausted (n + 1) f)), [])
  else
    let wait := op.policy.backoff n f.kind noise
    let line := LogLine.warn (s!"{op.name} 失败，等待 {wait.millis}ms 后重试 "
      ++ s!"({n + 1}/{op.policy.maxRetries}): {f.text}")
    (.active (.pausing n wait), [line])

/-- What comes after attempt `n`. -/
def conclude (op : Operation) (noise n : Nat) : Outcome α → Loop α × List LogLine
  | .value a =>
    (.ended (.ok a), if 0 < n then [.debug s!"{op.name} 在第 {n} 次重试后成功"] else [])
  | .fault f => op.afterFault noise n f
  | .late => op.afterFault noise n op.lateFault

end Operation

namespace Loop

def start : Loop α := active (.ready 0)

/-- The call goes on and does what the stage says. -/
def isAt : Loop α → Stage → Bool
  | active stage, other => stage == other
  | ended _, _ => false

/-- One step. A cancelled call is over; a signal that does not fit the stage changes nothing. -/
def step (op : Operation) (noise : Nat) (cancelled : Bool) :
    Loop α → Signal α → Loop α × List LogLine
  | ended result, _ => (ended result, [])
  | active stage, signal =>
    if cancelled then (ended (.error .cancelled), [])
    else
      match stage, signal with
      | .ready n, .look => (active (.attempting n), [])
      | .attempting n, .outcome o => op.conclude noise n o
      | .pausing n _, .wake => (active (.ready (n + 1)), [])
      | stage, _ => (active stage, [])

/-- A call that is over stays as it is. -/
@[simp] theorem step_ended (op : Operation) (noise : Nat) (cancelled : Bool)
    (result : Except Failure α) (s : Signal α) :
    step op noise cancelled (ended result) s = (ended result, []) := rfl

/-- A call that goes on is over with its next step once it is cancelled. -/
theorem step_cancelled (op : Operation) (noise : Nat) (stage : Stage) (s : Signal α) :
    step op noise true (active stage) s = (ended (.error .cancelled), []) := rfl

end Loop

end ResumableUpload.Retry
