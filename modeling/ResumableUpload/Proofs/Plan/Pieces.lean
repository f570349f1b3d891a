import Mathlib.Algebra.Order.Floor.Div
import Mathlib.Algebra.Order.Floor.Semiring
import Mathlib.Data.Rat.Floor
import ResumableUpload.Plan.Sizing

/-!
# Pieces and multiples

How many pieces hold a total, and which multiple of a step comes next above a value. Both are
ceilings, and a ceiling is known by the bounds that it keeps:

* some pieces are enough when together they are as large as the total (`piecesOf_le_iff`);
* a multiple of the step bounds the rounded value when it bounds the value (`roundUp_le_iff`).

Together they tell when a size gives few enough parts: when it is not below the size that the file
requires (`Sizing.required_le_iff`). The count of a cut is that of the pieces, and one for an empty
file (`Plan.count_cut`).
-/

namespace ResumableUpload

/-! ## Pieces -/

section Pieces

variable {total piece n : Nat}

/-- Some pieces are enough when together they are as large as the total. -/
theorem piecesOf_le_iff (h : 0 < piece) : piecesOf total piece ≤ n ↔ total ≤ n * piece := by
  rw [Nat.mul_comm]
  exact ceilDiv_le_iff_le_mul h

theorem lt_piecesOf_iff (h : 0 < piece) : n < piecesOf total piece ↔ n * piece < total := by
  rw [← Nat.not_le, piecesOf_le_iff h, Nat.not_le]

theorem le_piecesOf_mul (total : Nat) (h : 0 < piece) : total ≤ piecesOf total piece * piece :=
  (piecesOf_le_iff h).mp (Nat.le_refl _)

theorem piecesOf_zero (piece : Nat) : piecesOf 0 piece = 0 := zero_ceilDiv piece

theorem piecesOf_pos (h : 0 < piece) (htotal : 0 < total) : 0 < piecesOf total piece := by
  rw [lt_piecesOf_iff h, Nat.zero_mul]
  exact htotal

theorem piecesOf_le (h : 0 < piece) : piecesOf total piece ≤ total :=
  (piecesOf_le_iff h).mpr (Nat.le_mul_of_pos_right total h)

/-- A larger total takes no fewer pieces. -/
theorem piecesOf_mono {a b : Nat} (h : 0 < piece) (hab : a ≤ b) :
    piecesOf a piece ≤ piecesOf b piece :=
  (piecesOf_le_iff h).mpr (Nat.le_trans hab (le_piecesOf_mul b h))

/-- Larger pieces are no more. -/
theorem piecesOf_anti {small large : Nat} (h : 0 < small) (hle : small ≤ large) :
    piecesOf total large ≤ piecesOf total small := by
  rw [piecesOf_le_iff (Nat.lt_of_lt_of_le h hle)]
  exact Nat.le_trans (le_piecesOf_mul total h) (Nat.mul_le_mul_left _ hle)

/-- The pieces are the exact quotient rounded up. -/
theorem piecesOf_eq_ceil (h : 0 < piece) : piecesOf total piece = ⌈(total : ℚ) / piece⌉₊ := by
  have hpiece : (0 : ℚ) < piece := Nat.cast_pos.mpr h
  apply eq_of_forall_ge_iff
  intro n
  rw [piecesOf_le_iff h, Nat.ceil_le, div_le_iff₀ hpiece]
  exact_mod_cast Iff.rfl

theorem piecesOf_eq_div (h : 0 < piece) (hdvd : piece ∣ total) :
    piecesOf total piece = total / piece := by
  apply Nat.le_antisymm
  · rw [piecesOf_le_iff h, Nat.div_mul_cancel hdvd]
  · apply Nat.le_of_mul_le_mul_right _ h
    rw [Nat.div_mul_cancel hdvd]
    exact le_piecesOf_mul total h

theorem piecesOf_eq_div_add_one (h : 0 < piece) (hdvd : ¬ piece ∣ total) :
    piecesOf total piece = total / piece + 1 := by
  apply Nat.le_antisymm
  · rw [piecesOf_le_iff h, Nat.mul_comm]
    exact Nat.le_of_lt (Nat.lt_mul_div_succ total h)
  · apply (lt_piecesOf_iff h).mpr
    apply Nat.lt_of_le_of_ne (Nat.div_mul_le_self total piece)
    exact fun heq => hdvd (heq ▸ Nat.dvd_mul_left _ _)

end Pieces

/-! ## Multiples of a step -/

section Multiples

variable {value step size : Nat}

theorem dvd_roundUp (value step : Nat) : step ∣ roundUp value step := Nat.dvd_mul_left _ _

theorem roundUp_pos (value : Nat) (h : 0 < step) : 0 < roundUp value step :=
  Nat.mul_pos (Nat.lt_of_lt_of_le Nat.one_pos (Nat.le_max_right _ _)) h

/-- A positive multiple of the step bounds the rounded value when it bounds the value. -/
theorem roundUp_le_iff (h : 0 < step) (hdvd : step ∣ size) (hpos : 0 < size) :
    roundUp value step ≤ size ↔ value ≤ size := by
  obtain ⟨n, rfl⟩ := hdvd
  have hn : 1 ≤ n := Nat.pos_of_mul_pos_left hpos
  rw [roundUp, Nat.mul_comm step n, Nat.mul_le_mul_right_iff h, Nat.max_le, piecesOf_le_iff h]
  exact and_iff_left hn

theorem le_roundUp (value : Nat) (h : 0 < step) : value ≤ roundUp value step :=
  (roundUp_le_iff h (dvd_roundUp value step) (roundUp_pos value h)).mp (Nat.le_refl _)

theorem roundUp_mono {a b : Nat} (h : 0 < step) (hab : a ≤ b) :
    roundUp a step ≤ roundUp b step :=
  (roundUp_le_iff h (dvd_roundUp b step) (roundUp_pos b h)).mpr
    (Nat.le_trans hab (le_roundUp b h))

/-- Rounding up adds no more than a step. -/
theorem roundUp_le_add (value : Nat) (h : 0 < step) : roundUp value step ≤ value + step := by
  have hnext : value ≤ (value / step + 1) * step := by
    rw [Nat.mul_comm]
    exact Nat.le_of_lt (Nat.lt_mul_div_succ value h)
  have hround : roundUp value step ≤ (value / step + 1) * step :=
    (roundUp_le_iff h (Nat.dvd_mul_left _ _) (Nat.mul_pos (Nat.succ_pos _) h)).mpr hnext
  rw [Nat.succ_mul] at hround
  exact Nat.le_trans hround (Nat.add_le_add_right (Nat.div_mul_le_self value step) step)

end Multiples

/-! ## Parts -/

/-- The count of a cut is that of the pieces, but an empty file has a part as well. -/
theorem Plan.count_cut {totalSize partSize : Nat} (h : 0 < partSize) :
    (Plan.cut totalSize partSize).count = max 1 (piecesOf totalSize partSize) := by
  unfold Plan.cut
  split
  · next hzero =>
    rw [hzero, piecesOf_zero]
    rfl
  · next hne =>
    have hpieces : 0 < piecesOf totalSize partSize := piecesOf_pos h (Nat.pos_of_ne_zero hne)
    rw [Nat.max_eq_right hpieces, Plan.count, List.length_map, List.length_range]

/-- A cut has few enough parts when so many pieces hold the file. -/
theorem Plan.count_cut_le_iff {totalSize partSize n : Nat} (h : 0 < partSize) (hn : 0 < n) :
    (Plan.cut totalSize partSize).count ≤ n ↔ piecesOf totalSize partSize ≤ n := by
  rw [Plan.count_cut h, Nat.max_le]
  exact and_iff_right hn

namespace Sizing

variable {total size : Nat}

theorem partSizeStep_pos : 0 < partSizeStep := by decide

theorem dvd_required (total : Nat) : partSizeStep ∣ required total := dvd_roundUp _ _

theorem required_pos (total : Nat) : 0 < required total := roundUp_pos _ partSizeStep_pos

/-- A multiple of the step gives few enough parts when it is not below what the file requires. -/
theorem required_le_iff (hdvd : partSizeStep ∣ size) (hpos : 0 < size) :
    required total ≤ size ↔ piecesOf total size ≤ maxPartCount := by
  rw [required, roundUp_le_iff partSizeStep_pos hdvd hpos, piecesOf_le_iff (by decide),
    piecesOf_le_iff hpos, Nat.mul_comm]

theorem required_mono {a b : Nat} (h : a ≤ b) : required a ≤ required b :=
  roundUp_mono partSizeStep_pos (piecesOf_mono (by decide) h)

end Sizing

end ResumableUpload
