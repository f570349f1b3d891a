import ResumableUpload.Proofs.Plan.Partition
import ResumableUpload.Proofs.Word

/-!
# Plans in words

Lengths, sizes and offsets are held in words of 64 bits. Here a plan is made again, by operations on
words that have no result where the exact number is no word (`Word`). For every file whose length is
a word, each operation has a result, and the plan is the same (`Sizing.plan?_eq`).

So the parts of a plan are an exact partition of the file, and no operation on the way goes wrong
(`Sizing.plan_exact`). How many parts there is room for in memory is not asked here.
-/

namespace ResumableUpload

/-! ## Pieces and multiples in words -/

namespace Word

/-- A quotient rounded up: one more than the quotient if there is a remainder. -/
def pieces? (total piece : Nat) : Option Nat := do
  let whole ← div? total piece
  if total % piece = 0 then some whole else add? whole 1

/-- The least positive multiple of `step` that is not below `value`. -/
def roundUp? (value step : Nat) : Option Nat := do
  let pieces ← pieces? value step
  mul? (max pieces 1) step

variable {total piece value step : Nat}

theorem pieces?_eq (h : 0 < piece) (htotal : total < UInt64.size) :
    pieces? total piece = some (piecesOf total piece) := by
  rw [pieces?, div?_eq h, Option.bind_eq_bind, Option.bind_some]
  by_cases hdvd : piece ∣ total
  · rw [if_pos (Nat.mod_eq_zero_of_dvd hdvd), piecesOf_eq_div h hdvd]
  · have hle : piecesOf total piece ≤ total := piecesOf_le h
    rw [piecesOf_eq_div_add_one h hdvd] at hle ⊢
    rw [if_neg fun hmod => hdvd (Nat.dvd_of_mod_eq_zero hmod)]
    exact add?_eq (Nat.lt_of_le_of_lt hle htotal)

theorem roundUp?_eq (h : 0 < step) (hvalue : value + step < UInt64.size) :
    roundUp? value step = some (roundUp value step) := by
  rw [roundUp?, pieces?_eq h (by omega), Option.bind_eq_bind, Option.bind_some]
  exact mul?_eq (Nat.lt_of_le_of_lt (roundUp_le_add value h) hvalue)

end Word

/-! ## The parts -/

namespace Plan

def cutAt? (totalSize partSize index : Nat) : Option Chunk := do
  let offset ← Word.mul? index partSize
  let left ← Word.sub? totalSize offset
  some ⟨index, offset, min partSize left, false⟩

/-- A file cut into parts, by operations on words. -/
def cut? (totalSize partSize : Nat) : Option Plan :=
  if totalSize = 0 then some ⟨0, partSize, [⟨0, 0, 0, false⟩]⟩
  else do
    let count ← Word.pieces? totalSize partSize
    let chunks ← (List.range count).mapM (cutAt? totalSize partSize)
    some ⟨totalSize, partSize, chunks⟩

variable {totalSize partSize : Nat}

theorem cutAt?_eq {index : Nat} (htotal : totalSize < UInt64.size)
    (hstart : index * partSize < totalSize) :
    cutAt? totalSize partSize index = some (cutAt totalSize partSize index) := by
  rw [cutAt?, Word.mul?_eq (Nat.lt_trans hstart htotal), Option.bind_eq_bind, Option.bind_some,
    Word.sub?_eq (Nat.le_of_lt hstart), Option.bind_some]
  rfl

theorem mapM_cutAt?_eq (htotal : totalSize < UInt64.size) (indices : List Nat)
    (hstart : ∀ i ∈ indices, i * partSize < totalSize) :
    indices.mapM (cutAt? totalSize partSize)
      = some (indices.map (cutAt totalSize partSize)) := by
  induction indices with
  | nil => rfl
  | cons i rest ih =>
    have hrest := ih fun j hj => hstart j (List.mem_cons_of_mem i hj)
    rw [List.mapM_cons, cutAt?_eq htotal (hstart i List.mem_cons_self), hrest]
    rfl

theorem cut?_eq (hpos : 0 < partSize) (htotal : totalSize < UInt64.size) :
    cut? totalSize partSize = some (cut totalSize partSize) := by
  unfold cut? cut
  split
  · rfl
  · rw [Word.pieces?_eq hpos htotal, Option.bind_eq_bind, Option.bind_some, mapM_cutAt?_eq htotal]
    · rfl
    · intro i hi
      exact (lt_piecesOf_iff hpos).mp (List.mem_range.mp hi)

end Plan

/-! ## The size -/

namespace Sizing

variable {s : Sizing} {total : Nat}

/-- A step further is further. -/
theorem lt_of_add?_step {size next : Nat} (h : Word.add? size partSizeStep = some next) :
    size < next := by
  rw [Word.eq_of_add?_eq_some h]
  exact Nat.lt_add_of_pos_right partSizeStep_pos

/-- The search for a size, by operations on words. -/
def grow? (total ceiling size : Nat) : Option Nat :=
  if size < ceiling then do
    let pieces ← Word.pieces? total size
    if maxPartCount < pieces then
      let next ← (Word.add? size partSizeStep).attach
      grow? total ceiling next.1
    else some size
  else some size
termination_by ceiling - size
decreasing_by
  have hnext : size < next.1 := lt_of_add?_step next.2
  omega

def shared? (s : Sizing) (total : Nat) : Option Nat := do
  let target ← Word.mul? (clampThreads s.threads) chunksPerThread
  let share ← Word.pieces? total target
  let size ← Word.roundUp? share partSizeStep
  Word.clamp? minPartSize s.ceiling size

def preferred? (s : Sizing) (total : Nat) : Option Nat :=
  if s.lowBandwidth then grow? total s.ceiling minPartSize else s.shared? total

def required? (total : Nat) : Option Nat := do
  let share ← Word.pieces? total maxPartCount
  Word.roundUp? share partSizeStep

/-- The size of a part, by operations on words. -/
def partSize? (s : Sizing) (total : Nat) : Option Nat :=
  if 0 < s.hint then some s.hint
  else do
    let size ← s.preferred? total
    let pieces ← Word.pieces? total size
    if maxPartCount < pieces then required? total else some size

/-- A file cut into parts, by operations on words. -/
def plan? (s : Sizing) (total : Nat) : Option Plan := do
  let size ← s.partSize? total
  Plan.cut? total size

theorem ceiling_le (s : Sizing) : s.ceiling ≤ 32 * mebibyte := by
  rw [ceiling_eq]
  cases s.membership <;> decide

theorem target_fits (s : Sizing) : s.target < UInt64.size := by
  have hthreads : clampThreads s.threads ≤ 32 := by
    unfold clampThreads
    omega
  exact Nat.lt_of_le_of_lt (Nat.mul_le_mul_right chunksPerThread hthreads) (by decide)

theorem grow?_eq {ceiling size : Nat} (hpos : 0 < size) (htotal : total < UInt64.size)
    (hceiling : ceiling + partSizeStep < UInt64.size) :
    grow? total ceiling size = some (grow total ceiling size) := by
  fun_induction grow total ceiling size with
  | case1 size hgo ih =>
    have hnext : (Word.add? size partSizeStep).attach
        = some ⟨size + partSizeStep, Word.add?_eq (by omega)⟩ := by
      rw [Option.attach_eq_some_iff]
      exact Word.add?_eq (by omega)
    rw [grow?, if_pos hgo.1, Word.pieces?_eq hpos htotal, Option.bind_eq_bind, Option.bind_some,
      if_pos hgo.2, hnext, Option.bind_eq_bind, Option.bind_some]
    exact ih (by omega)
  | case2 size hstop =>
    rw [grow?]
    split
    · next hlt =>
      rw [Word.pieces?_eq hpos htotal, Option.bind_eq_bind, Option.bind_some,
        if_neg fun hmany => hstop ⟨hlt, hmany⟩]
    · rfl

/-- What rounding up adds is small against the parts of a file that is cut into four or more, so the
result is a word. -/
theorem roundUp?_pieces_eq {piece : Nat} (hpiece : 4 ≤ piece) (htotal : total < UInt64.size) :
    Word.roundUp? (piecesOf total piece) partSizeStep
      = some (roundUp (piecesOf total piece) partSizeStep) := by
  have hshare : piecesOf total piece ≤ UInt64.size / 4 := by
    rw [piecesOf_le_iff (by omega)]
    calc total
      _ ≤ UInt64.size / 4 * 4 := Nat.le_of_lt htotal
      _ ≤ UInt64.size / 4 * piece := Nat.mul_le_mul_left _ hpiece
  apply Word.roundUp?_eq partSizeStep_pos
  exact Nat.lt_of_le_of_lt (Nat.add_le_add_right hshare _) (by decide)

theorem shared?_eq (htotal : total < UInt64.size) : s.shared? total = some (s.shared total) := by
  have htarget : 4 ≤ s.target := Nat.mul_le_mul_right chunksPerThread (clampThreads_pos s.threads)
  have hmul : Word.mul? (clampThreads s.threads) chunksPerThread = some s.target :=
    Word.mul?_eq s.target_fits
  rw [shared?, hmul, Option.bind_eq_bind, Option.bind_some, Word.pieces?_eq s.target_pos htotal,
    Option.bind_some, roundUp?_pieces_eq htarget htotal, Option.bind_some,
    Word.clamp?_eq s.minPartSize_le_ceiling]
  rfl

theorem preferred?_eq (htotal : total < UInt64.size) :
    s.preferred? total = some (s.preferred total) := by
  unfold preferred? preferred
  split
  · apply grow?_eq (by decide) htotal
    exact Nat.lt_of_le_of_lt (Nat.add_le_add_right s.ceiling_le _) (by decide)
  · exact shared?_eq htotal

theorem required?_eq (htotal : total < UInt64.size) : required? total = some (required total) := by
  rw [required?, Word.pieces?_eq (by decide) htotal, Option.bind_eq_bind, Option.bind_some]
  exact roundUp?_pieces_eq (by decide) htotal

theorem partSize?_eq (htotal : total < UInt64.size) :
    s.partSize? total = some (s.partSize total) := by
  unfold partSize? partSize
  split
  · rfl
  · rw [preferred?_eq htotal, Option.bind_eq_bind, Option.bind_some,
      Word.pieces?_eq (s.preferred_pos total) htotal, Option.bind_some, isTooSmall,
      required?_eq htotal]
    by_cases hmany : maxPartCount < piecesOf total (s.preferred total)
    · rw [if_pos hmany, if_pos (decide_eq_true hmany)]
    · rw [if_neg hmany, if_neg (by simpa using hmany)]

/-- In words the plan of a file is the same. -/
theorem plan?_eq (htotal : total < UInt64.size) : s.plan? total = some (s.plan total) := by
  rw [plan?, partSize?_eq htotal, Option.bind_eq_bind, Option.bind_some]
  exact Plan.cut?_eq (s.partSize_pos total) htotal

/-- The size of a part is a word if the size asked for is one. -/
theorem partSize_lt (hhint : s.hint < UInt64.size) (htotal : total < UInt64.size) :
    s.partSize total < UInt64.size := by
  have hpreferred : s.preferred total ≤ 32 * mebibyte :=
    Nat.le_trans (s.preferred_le_ceiling total) s.ceiling_le
  have hpieces : piecesOf total (2 ^ 54) ≤ maxPartCount :=
    (piecesOf_le_iff (by decide)).mpr (Nat.le_of_lt (Nat.lt_trans htotal (by decide)))
  have hrequired : required total ≤ 2 ^ 54 := (required_le_iff (by decide) (by decide)).mpr hpieces
  unfold partSize
  split
  · exact hhint
  · split
    · exact Nat.lt_of_le_of_lt hrequired (by decide)
    · exact Nat.lt_of_le_of_lt hpreferred (by decide)

/-- The parts of a plan are an exact partition of the file, whatever its length, and no operation on
words goes wrong on the way. -/
theorem plan_exact (s : Sizing) (total : Nat) (htotal : total < UInt64.size) :
    (s.plan total).totalSize = total ∧ (s.plan total).partSize = s.partSize total ∧
      (s.plan total).Exact ∧ s.plan? total = some (s.plan total) :=
  ⟨Plan.totalSize_cut _ _, Plan.partSize_cut _ _, Plan.exact_cut total (s.partSize_pos total),
    plan?_eq htotal⟩

/-- The largest file in two parts. -/
theorem plan_exact_largest :
    let s : Sizing := { hint := 2 ^ 63 }
    let largest := 2 ^ 64 - 1
    largest < UInt64.size ∧ (s.plan largest).Exact ∧
      s.plan? largest = some ⟨largest, 2 ^ 63,
        [⟨0, 0, 2 ^ 63, false⟩, ⟨1, 2 ^ 63, 2 ^ 63 - 1, false⟩]⟩ := by
  intro s largest
  have hfits : largest < UInt64.size := by decide
  obtain ⟨-, -, hexact, hplan⟩ := plan_exact s largest hfits
  exact ⟨hfits, hexact, hplan.trans (by decide)⟩

end Sizing

end ResumableUpload
