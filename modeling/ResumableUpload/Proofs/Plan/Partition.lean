import ResumableUpload.Proofs.Digest.Stream
import ResumableUpload.Proofs.Plan.Choice
import ResumableUpload.Proofs.Plan.Marking

/-!
# The parts of a file

The parts of a cut follow one another without gaps, from the first byte to the last (`Tiles`,
`tiles_cut`), whichever size was chosen (`Sizing.partSize_pos`). So their bytes, joined in their
order, are those of the file (`Tiles.joined`). All but the last are of one size, there are no more
of them than it takes, and each is numbered by its position (`Exact`, `exact_cut`).
-/

namespace ResumableUpload

/-- The parts follow one another without gaps, from one offset to another. -/
inductive Tiles : Nat → Nat → List Chunk → Prop
  | nil (stop : Nat) : Tiles stop stop []
  | cons (c : Chunk) {stop : Nat} {rest : List Chunk} :
      Tiles (c.offset + c.size) stop rest → Tiles c.offset stop (c :: rest)

namespace Tiles

variable {start stop : Nat} {chunks : List Chunk}

theorem le (h : Tiles start stop chunks) : start ≤ stop := by
  induction h with
  | nil => exact Nat.le_refl _
  | cons c _ ih => exact Nat.le_trans (Nat.le_add_right _ _) ih

/-- Each part lies between the two offsets. -/
theorem within (h : Tiles start stop chunks) :
    ∀ c ∈ chunks, start ≤ c.offset ∧ c.offset + c.size ≤ stop := by
  induction h with
  | nil => exact fun c hc => absurd hc List.not_mem_nil
  | cons first hrest ih =>
    intro c hc
    rcases List.mem_cons.mp hc with rfl | hc
    · exact ⟨Nat.le_refl _, hrest.le⟩
    · obtain ⟨hstart, hstop⟩ := ih c hc
      exact ⟨Nat.le_trans (Nat.le_add_right _ _) hstart, hstop⟩

theorem offset_first (h : Tiles start stop chunks) {c : Chunk} (hc : chunks[0]? = some c) :
    c.offset = start := by
  cases h with
  | nil => cases hc
  | cons first hrest =>
    cases hc
    rfl

/-- Each part starts where the one before it ends. -/
theorem offset_next (h : Tiles start stop chunks) {i : Nat} {c d : Chunk}
    (hc : chunks[i]? = some c) (hd : chunks[i + 1]? = some d) : d.offset = c.offset + c.size := by
  induction h generalizing i with
  | nil => cases hc
  | cons first hrest ih =>
    cases i with
    | zero =>
      cases hc
      exact hrest.offset_first hd
    | succ i => exact ih hc hd

theorem sum_size (h : Tiles start stop chunks) : start + (chunks.map Chunk.size).sum = stop := by
  induction h with
  | nil => rfl
  | cons c _ ih =>
    rw [List.map_cons, List.sum_cons, ← Nat.add_assoc]
    exact ih

/-- The bytes of the parts, joined, are the bytes from the one offset to the other. -/
theorem joined (h : Tiles start stop chunks) {content : ByteArray} (hstop : stop ≤ content.size) :
    (chunks.map fun c => c.bytes content).foldr (· ++ ·) .empty = content.extract start stop := by
  induction h with
  | nil stop => exact ByteArray.extract_same.symm
  | @cons c stop rest hrest ih =>
    rw [List.map_cons, List.foldr_cons, ih hstop, Chunk.bytes]
    apply (ByteArray.extract_eq_extract_append_extract (c.offset + c.size) ..).symm
    · exact Nat.le_add_right _ _
    · exact hrest.le

/-- Parts that tile more than so many bytes have a first one that goes past them. -/
theorem past (h : Tiles start stop chunks) {n : Nat} (hstart : start ≤ n) (hstop : n < stop) :
    ∃ before c after, chunks = before ++ c :: after ∧ (∀ d ∈ before, d.offset ≤ n) ∧
      c.offset ≤ n ∧ n < c.offset + c.size := by
  induction h with
  | nil stop => omega
  | @cons c stop rest hrest ih =>
    rcases Nat.lt_or_ge n (c.offset + c.size) with hpast | hbefore
    · exact ⟨[], c, rest, rfl, fun d hd => absurd hd List.not_mem_nil, hstart, hpast⟩
    · obtain ⟨before, d, after, rfl, hall, hd⟩ := ih hbefore hstop
      exact ⟨c :: before, d, after, rfl, List.forall_mem_cons.mpr ⟨hstart, hall⟩, hd⟩

end Tiles

namespace Plan

/-- Parts of one size tile what they reach, as long as each starts before the end. -/
theorem tiles_cutAt (totalSize partSize n i : Nat)
    (hstarts : ∀ j, j < i + n → j * partSize < totalSize)
    (hreach : totalSize ≤ (i + n) * partSize) :
    Tiles (min (i * partSize) totalSize) totalSize
      ((List.range' i n).map (cutAt totalSize partSize)) := by
  induction n generalizing i with
  | zero =>
    rw [Nat.add_zero] at hreach
    rw [Nat.min_eq_right hreach]
    exact .nil _
  | succ n ih =>
    have hstart : i * partSize < totalSize := hstarts i (by omega)
    have hnext : i + 1 + n = i + (n + 1) := by omega
    have hrest := ih (i + 1) (by rwa [hnext]) (by rwa [hnext])
    have hend : min ((i + 1) * partSize) totalSize
        = i * partSize + min partSize (totalSize - i * partSize) := by
      rw [Nat.succ_mul]
      omega
    rw [hend] at hrest
    rw [Nat.min_eq_left (Nat.le_of_lt hstart)]
    exact .cons (cutAt totalSize partSize i) hrest

/-- The parts of a cut tile the file. -/
theorem tiles_cut (totalSize : Nat) {partSize : Nat} (hpos : 0 < partSize) :
    Tiles 0 totalSize (cut totalSize partSize).chunks := by
  unfold cut
  split
  · next hzero =>
    rw [hzero]
    exact .cons ⟨0, 0, 0, false⟩ (.nil 0)
  · next hne =>
    have hall := tiles_cutAt totalSize partSize (piecesOf totalSize partSize) 0
    rw [Nat.zero_mul, Nat.zero_min, Nat.zero_add] at hall
    show Tiles 0 totalSize ((List.range (piecesOf totalSize partSize)).map _)
    rw [List.range_eq_range']
    apply hall
    · intro j hj
      exact (lt_piecesOf_iff hpos).mp hj
    · exact le_piecesOf_mul totalSize hpos

/-! ## Exact cuts -/

@[simp] theorem totalSize_cut (totalSize partSize : Nat) :
    (cut totalSize partSize).totalSize = totalSize := by
  unfold cut
  split
  · next hzero => exact hzero.symm
  · rfl

/-- A part of a cut is found by its position, and starts before the end. -/
theorem getElem?_chunks_cut {totalSize partSize i : Nat} {c : Chunk} (hpos : 0 < partSize)
    (hne : totalSize ≠ 0) (hc : (cut totalSize partSize).chunks[i]? = some c) :
    c = cutAt totalSize partSize i ∧ i * partSize < totalSize := by
  rw [cut, if_neg hne, List.getElem?_map, Option.map_eq_some_iff] at hc
  obtain ⟨j, hj, rfl⟩ := hc
  obtain ⟨hlt, rfl⟩ := List.getElem?_eq_some_iff.mp hj
  rw [List.length_range, lt_piecesOf_iff hpos] at hlt
  rw [List.getElem_range]
  exact ⟨rfl, hlt⟩

/-- The parts of a plan are an exact partition of its file. -/
structure Exact (p : Plan) : Prop where
  partSize_pos : 0 < p.partSize
  index_eq : ∀ {i : Nat} {c : Chunk}, p.chunks[i]? = some c → c.index = i
  offset_first : ∀ {c : Chunk}, p.chunks[0]? = some c → c.offset = 0
  offset_next : ∀ {i : Nat} {c d : Chunk}, p.chunks[i]? = some c → p.chunks[i + 1]? = some d →
    d.offset = c.offset + c.size
  /-- All parts but the last are of one size. -/
  size_eq : ∀ {i : Nat} {c : Chunk}, p.chunks[i]? = some c → i + 1 < p.count → c.size = p.partSize
  size_bounds : p.totalSize ≠ 0 → ∀ c ∈ p.chunks, 1 ≤ c.size ∧ c.size ≤ p.partSize
  sum_size : (p.chunks.map Chunk.size).sum = p.totalSize
  fresh : p.Fresh
  count_eq : p.totalSize ≠ 0 → p.count = ⌈(p.totalSize : ℚ) / p.partSize⌉₊
  chunks_empty : p.totalSize = 0 → p.chunks = [⟨0, 0, 0, false⟩]

theorem exact_cut (totalSize : Nat) {partSize : Nat} (hpos : 0 < partSize) :
    (cut totalSize partSize).Exact where
  partSize_pos := by rwa [partSize_cut]
  index_eq := (numbered_cut totalSize partSize).index_eq
  offset_first := (tiles_cut totalSize hpos).offset_first
  offset_next := (tiles_cut totalSize hpos).offset_next
  size_eq := by
    intro i c hc hnext
    rw [count_cut hpos, lt_max_iff] at hnext
    have hend : (i + 1) * partSize < totalSize :=
      (lt_piecesOf_iff hpos).mp (hnext.resolve_left (by omega))
    obtain ⟨rfl, -⟩ := getElem?_chunks_cut hpos (by omega) hc
    rw [Nat.succ_mul] at hend
    rw [partSize_cut]
    exact Nat.min_eq_left (by omega)
  size_bounds := by
    rw [totalSize_cut, partSize_cut]
    intro hne c hc
    obtain ⟨i, hi⟩ := List.getElem?_of_mem hc
    obtain ⟨rfl, hstart⟩ := getElem?_chunks_cut hpos hne hi
    exact ⟨Nat.le_min.mpr ⟨hpos, by omega⟩, Nat.min_le_left _ _⟩
  sum_size := by
    have hsum := (tiles_cut totalSize hpos).sum_size
    rw [Nat.zero_add] at hsum
    exact hsum.trans (totalSize_cut totalSize partSize).symm
  fresh := fresh_cut totalSize partSize
  count_eq := by
    rw [totalSize_cut, partSize_cut, ← piecesOf_eq_ceil hpos, count_cut hpos]
    intro hne
    exact Nat.max_eq_right (piecesOf_pos hpos (Nat.pos_of_ne_zero hne))
  chunks_empty := by
    rw [totalSize_cut]
    rintro rfl
    rfl

end Plan

namespace Sizing

theorem tiles_plan (s : Sizing) (total : Nat) : Tiles 0 total (s.plan total).chunks :=
  Plan.tiles_cut total (s.partSize_pos total)

end Sizing

end ResumableUpload
