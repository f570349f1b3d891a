import ResumableUpload.Fault.Call

/-!
# Why a retried call failed for good

A retried call ends without a value in three ways: its retries are used up, a fault came that no
retry can mend, or it was cancelled.
-/

namespace ResumableUpload.Retry

/-- Why a retried call failed for good. -/
inductive Failure
  -- every attempt failed, the last with this fault
  | exhausted (attempts : Nat) (last : CallFault)
  -- an attempt failed with a fault that no retry can mend
  | fatal (attempts : Nat) (fault : CallFault)
  -- the caller gave the call up
  | cancelled
  deriving DecidableEq

namespace Failure

/-- The name of the way in which the call failed. -/
def label : Failure → String
  | exhausted .. => "Exhausted"
  | fatal .. => "Fatal"
  | cancelled => "Cancelled"

/-- How many attempts were made; none are counted for a cancelled call. -/
def attempts : Failure → Nat
  | exhausted n _ | fatal n _ => n
  | cancelled => 0

def lastFault? : Failure → Option CallFault
  | exhausted _ f | fatal _ f => some f
  | cancelled => none

def kind (f : Failure) : FaultKind :=
  (f.lastFault?.map CallFault.kind).getD .cancelled

def text : Failure → String
  | exhausted n last => s!"重试 {n} 次后仍然失败: {last.text}"
  | fatal n fault => s!"不可重试的错误（第 {n} 次尝试）: {fault.text}"
  | cancelled => "操作已取消"

end Failure

end ResumableUpload.Retry
