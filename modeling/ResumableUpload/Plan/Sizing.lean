import ResumableUpload.Log
import ResumableUpload.Membership
import ResumableUpload.Plan.Basic

/-!
# The size of a part

A size may be asked for. Otherwise it is chosen: a multiple of a mebibyte, at least four, such that
each worker gets about four parts and the account's limit is kept. With little bandwidth the parts
are as small as the number of parts allows. No file is cut into more than 2048 parts; a file too
large for that within the account's limit gets larger parts.
-/

namespace ResumableUpload

/-- The least size of a chosen part. -/
def minPartSize : Nat := 4 * mebibyte

/-- Chosen sizes are multiples of this. -/
def partSizeStep : Nat := mebibyte

def maxPartCount : Nat := 2048

/-- The number of parts that each worker should get. -/
def chunksPerThread : Nat := 4

/-- A number from one to thirty-two, the nearest to the given one. -/
def clampThreads (n : Nat) : Nat := max 1 (min n 32)

/-- The least positive multiple of `step` that is not below `value`. -/
def roundUp (value step : Nat) : Nat := max (piecesOf value step) 1 * step

/-- What decides the size of a part. -/
structure Sizing where
  membership : Membership := .normal
  lowBandwidth : Bool := false
  /-- The size that was asked for; zero leaves the choice open. -/
  hint : Nat := 0
  threads : Nat := 3

namespace Sizing

/-- The largest part that the account may send. -/
def ceiling (s : Sizing) : Nat := max s.membership.maxPartSize minPartSize

/-- The first size, going up in steps from `size`, that gives few enough parts or reaches the
ceiling. -/
def grow (total ceiling size : Nat) : Nat :=
  if size < ceiling ∧ maxPartCount < piecesOf total size then
    grow total ceiling (size + partSizeStep)
  else size
termination_by ceiling - size
decreasing_by
  have : 0 < partSizeStep := by decide
  omega

/-- The size that gives each worker its share of the parts, within the limits. -/
def shared (s : Sizing) (total : Nat) : Nat :=
  let target := clampThreads s.threads * chunksPerThread
  max minPartSize (min (roundUp (piecesOf total target) partSizeStep) s.ceiling)

/-- The size chosen within the limit of the account. -/
def preferred (s : Sizing) (total : Nat) : Nat :=
  if s.lowBandwidth then grow total s.ceiling minPartSize else s.shared total

/-- The least size that gives few enough parts. -/
def required (total : Nat) : Nat := roundUp (piecesOf total maxPartCount) partSizeStep

/-- The size chosen within the limit gives too many parts. -/
def isTooSmall (s : Sizing) (total : Nat) : Bool :=
  maxPartCount < piecesOf total (s.preferred total)

/-- The size of a part of a file of `total` bytes. -/
def partSize (s : Sizing) (total : Nat) : Nat :=
  if 0 < s.hint then s.hint
  else if s.isTooSmall total then required total
  else s.preferred total

def notices (s : Sizing) (total : Nat) : List LogLine :=
  if 0 < s.hint then
    if s.ceiling < s.hint then
      [.warn s!"自定义分片大小 {s.hint} 超过当前账号上限 {s.ceiling}，服务端可能拒绝"]
    else []
  else if s.isTooSmall total then
    [.warn s!"文件过大 ({total} bytes)，分片大小由 {s.preferred total} 调整为 {s.partSize total}"]
  else []

/-- A file of `total` bytes cut into parts. -/
def plan (s : Sizing) (total : Nat) : Plan := Plan.cut total (s.partSize total)

/-- What is said while a file is cut into parts. -/
def planNotices (s : Sizing) (total : Nat) : List LogLine :=
  let plan := s.plan total
  s.notices total ++
    [.debug s!"分片计划: 文件大小={total}, 分片大小={plan.partSize}, 分片数={plan.count}"]

end Sizing

end ResumableUpload
