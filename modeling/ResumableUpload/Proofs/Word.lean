/-!
# Operations on words

Lengths, sizes and waits are held in words of 64 bits. The operations here have no result where the
exact number is no word: where a sum or a product is too large, a difference is negative, a divisor
is zero or bounds are out of order. Where the number is a word they are exact. A computation whose
operations all have a result has thus not gone wrong on the way.
-/

namespace ResumableUpload.Word

/-- A number, if it is a word. -/
def ofNat? (n : Nat) : Option Nat := if n < UInt64.size then some n else none

def add? (a b : Nat) : Option Nat := ofNat? (a + b)

def sub? (a b : Nat) : Option Nat := if b ≤ a then some (a - b) else none

def mul? (a b : Nat) : Option Nat := ofNat? (a * b)

def div? (a b : Nat) : Option Nat := if b = 0 then none else some (a / b)

def mod? (a b : Nat) : Option Nat := if b = 0 then none else some (a % b)

/-- The number within the bounds that is nearest to `n`. -/
def clamp? (low high n : Nat) : Option Nat :=
  if low ≤ high then some (max low (min n high)) else none

variable {a b : Nat}

theorem add?_eq (h : a + b < UInt64.size) : add? a b = some (a + b) := if_pos h

theorem eq_of_add?_eq_some {c : Nat} (h : add? a b = some c) : c = a + b :=
  (Option.some.inj (Option.ite_none_right_eq_some.mp h).2).symm

/-- A sum that is no word can be cut off at the largest one. -/
theorem add?_getD (a b : Nat) :
    (add? a b).getD (UInt64.size - 1) = min (a + b) (UInt64.size - 1) := by
  unfold add? ofNat?
  split
  · rw [Option.getD_some]
    omega
  · rw [Option.getD_none]
    omega

theorem sub?_eq (h : b ≤ a) : sub? a b = some (a - b) := if_pos h

theorem mul?_eq (h : a * b < UInt64.size) : mul? a b = some (a * b) := if_pos h

/-- A product that is no word does not become one when something is added. -/
theorem add?_mul? (a b c : Nat) : (mul? a b).bind (add? · c) = ofNat? (a * b + c) := by
  by_cases h : a * b < UInt64.size
  · rw [mul?_eq h]
    rfl
  · rw [mul?, ofNat?, ofNat?, if_neg h, if_neg (by omega)]
    rfl

theorem div?_eq (h : 0 < b) : div? a b = some (a / b) := if_neg (Nat.ne_of_gt h)

theorem mod?_eq (h : 0 < b) : mod? a b = some (a % b) := if_neg (Nat.ne_of_gt h)

theorem clamp?_eq {low high n : Nat} (h : low ≤ high) :
    clamp? low high n = some (max low (min n high)) := if_pos h

end ResumableUpload.Word
