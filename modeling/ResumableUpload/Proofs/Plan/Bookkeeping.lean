import ResumableUpload.Proofs.Plan.Words

/-!
# The books of a plan

While a file is uploaded, its parts are marked one by one, and at times the server says which of them
it still wants. It may be told of parts that there are not, of one part twice, and in any order
(`Plan.Update`). Nothing of this moves a part (`outline_after`), so in every plan that comes about
numbers are positions, and what is on the server and what is pending make up the whole file, in parts
and in bytes (`Balanced`, `Sizing.books_balance`).
-/

namespace ResumableUpload

/-- Where a part stands, whether or not it is on the server. -/
def Chunk.outline (c : Chunk) : Nat × Nat × Nat := (c.index, c.offset, c.size)

namespace Plan

/-- Something that becomes known of the parts of a plan. -/
inductive Update
  -- the part at a position is on the server
  | mark (position : Nat)
  -- the parts with these numbers are wanted, and no others
  | retain (needed : List Nat)

def update (p : Plan) : Update → Plan
  | .mark position => (p.tryMark position).2
  | .retain needed => p.retain needed

/-- The plan after some updates. -/
def afterUpdates (p : Plan) (us : List Update) : Plan := us.foldl update p

/-- Where the parts stand. -/
def outline (p : Plan) : List (Nat × Nat × Nat) := p.chunks.map Chunk.outline

variable {p q : Plan} {i : Nat}

/-! ## What an update does -/

/-- Whether there is a part at the position is told, and the part is marked. -/
theorem tryMark_eq (p : Plan) (i : Nat) : p.tryMark i = (decide (i < p.count), p.mark i) := by
  unfold tryMark mark
  cases hc : p.chunks[i]? with
  | none =>
    have hge : p.chunks.length ≤ i := List.getElem?_eq_none_iff.mp hc
    rw [List.modify_eq_self hge, decide_eq_false (show ¬ i < p.count from Nat.not_lt.mpr hge)]
  | some c =>
    obtain ⟨hlt, -⟩ := List.getElem?_eq_some_iff.mp hc
    have hchunks : p.chunks.set i { c with uploaded := true }
        = p.chunks.modify i fun c => { c with uploaded := true } := by
      apply List.ext_getElem?
      intro j
      rw [List.getElem?_set, List.getElem?_modify]
      by_cases hij : i = j
      · subst hij
        simp only [if_true, if_pos hlt, hc]
        rfl
      · simp only [if_neg hij]
        exact Option.map_id'.symm
    rw [decide_eq_true (show i < p.count from hlt), ← hchunks]

theorem outline_mark (p : Plan) (i : Nat) : (p.mark i).outline = p.outline := by
  apply List.ext_getElem?
  intro j
  simp only [outline, mark, List.getElem?_map, List.getElem?_modify]
  cases p.chunks[j]? with
  | none => rfl
  | some c =>
    simp only [Option.map_some]
    split <;> rfl

theorem outline_retain (p : Plan) (needed : List Nat) : (p.retain needed).outline = p.outline := by
  simp only [outline, retain, List.map_map]
  rfl

/-- An update moves no part. -/
theorem outline_update (p : Plan) (u : Update) : (p.update u).outline = p.outline := by
  cases u with
  | mark i =>
    rw [update, tryMark_eq]
    exact outline_mark p i
  | retain needed => exact outline_retain p needed

theorem totalSize_update (p : Plan) (u : Update) : (p.update u).totalSize = p.totalSize := by
  cases u with
  | mark i => rw [update, tryMark_eq, mark]
  | retain needed => rfl

theorem partSize_update (p : Plan) (u : Update) : (p.update u).partSize = p.partSize := by
  cases u with
  | mark i => rw [update, tryMark_eq, mark]
  | retain needed => rfl

theorem outline_after (p : Plan) (us : List Update) : (p.afterUpdates us).outline = p.outline := by
  induction us generalizing p with
  | nil => rfl
  | cons u us ih => exact (ih (p.update u)).trans (outline_update p u)

theorem sizes_after (p : Plan) (us : List Update) :
    (p.afterUpdates us).totalSize = p.totalSize ∧ (p.afterUpdates us).partSize = p.partSize := by
  induction us generalizing p with
  | nil => exact ⟨rfl, rfl⟩
  | cons u us ih =>
    obtain ⟨htotal, hpart⟩ := ih (p.update u)
    exact ⟨htotal.trans (totalSize_update p u), hpart.trans (partSize_update p u)⟩

/-! ## What the outline settles -/

theorem count_of_outline (h : p.outline = q.outline) : p.count = q.count := by
  have hlength := congrArg List.length h
  rwa [outline, outline, List.length_map, List.length_map] at hlength

theorem Numbered.of_outline (hq : q.Numbered) (h : p.outline = q.outline) : p.Numbered := by
  have hindex : p.chunks.map Chunk.index = q.chunks.map Chunk.index := by
    have hfirst := congrArg (List.map Prod.fst) h
    rwa [outline, outline, List.map_map, List.map_map] at hfirst
  rw [Numbered, hindex, count_of_outline h]
  exact hq

theorem sum_size_of_outline (h : p.outline = q.outline) :
    (p.chunks.map Chunk.size).sum = (q.chunks.map Chunk.size).sum := by
  have hlast := congrArg (List.map fun x : Nat × Nat × Nat => x.2.2) h
  rw [outline, outline, List.map_map, List.map_map] at hlast
  exact congrArg List.sum hlast

/-! ## Parts and bytes -/

/-- Each part is either on the server or pending. -/
theorem uploaded_append_pending (p : Plan) : (p.uploaded ++ p.pending).Perm p.chunks :=
  List.filter_append_perm _ p.chunks

theorem length_uploaded_add (p : Plan) : p.uploaded.length + p.pending.length = p.count := by
  rw [← List.length_append]
  exact p.uploaded_append_pending.length_eq

theorem sum_uploaded_add (p : Plan) :
    (p.uploaded.map Chunk.size).sum + (p.pending.map Chunk.size).sum
      = (p.chunks.map Chunk.size).sum := by
  rw [← List.sum_append, ← List.map_append]
  exact (p.uploaded_append_pending.map Chunk.size).sum_nat

/-- The sizes of parts added up in words, if every sum on the way is one. -/
def sizeInWords? (chunks : List Chunk) : Option Nat :=
  chunks.foldlM (fun n c => Word.add? n c.size) 0

theorem foldlM_size (chunks : List Chunk) (n : Nat)
    (h : n + (chunks.map Chunk.size).sum < UInt64.size) :
    chunks.foldlM (fun n c => Word.add? n c.size) n = some (n + (chunks.map Chunk.size).sum) := by
  induction chunks generalizing n with
  | nil => rfl
  | cons c rest ih =>
    rw [List.map_cons, List.sum_cons, ← Nat.add_assoc] at h ⊢
    rw [List.foldlM_cons, Word.add?_eq (Nat.lt_of_le_of_lt (Nat.le_add_right _ _) h)]
    exact ih (n + c.size) h

theorem foldl_size (chunks : List Chunk) (n : Nat) :
    chunks.foldl (fun n c => n + c.size) n = n + (chunks.map Chunk.size).sum := by
  induction chunks generalizing n with
  | nil => rfl
  | cons c rest ih => rw [List.foldl_cons, ih, List.map_cons, List.sum_cons, Nat.add_assoc]

theorem uploadedBytes_eq (h : (p.uploaded.map Chunk.size).sum < UInt64.size) :
    p.uploadedBytes = (p.uploaded.map Chunk.size).sum := by
  rw [uploadedBytes, foldl_size, Nat.zero_add, Nat.mod_eq_of_lt h]

/-! ## The books -/

/-- The books of a plan balance. -/
structure Balanced (p : Plan) : Prop where
  mem_pending : ∀ c, c ∈ p.pending ↔ c ∈ p.chunks ∧ c.uploaded = false
  increasing : (p.pending.map Chunk.index).Pairwise (· < ·)
  counts : p.uploaded.length + p.pending.length = p.count
  bytes : p.uploadedBytes + (p.pending.map Chunk.size).sum = p.totalSize
  /-- No sum on the way to the bytes on the server is too large for a word. -/
  fits : sizeInWords? p.uploaded = some p.uploadedBytes
  complete : p.isComplete = true ↔ p.pending = []

theorem balanced_of_numbered (hn : p.Numbered) (hsum : (p.chunks.map Chunk.size).sum = p.totalSize)
    (htotal : p.totalSize < UInt64.size) : p.Balanced := by
  have hwhole := p.sum_uploaded_add.trans hsum
  have hfits : (p.uploaded.map Chunk.size).sum < UInt64.size :=
    Nat.lt_of_le_of_lt (hwhole ▸ Nat.le_add_right _ _) htotal
  have hbytes := uploadedBytes_eq hfits
  refine {
    mem_pending := fun c => ?_
    increasing := hn.pairwise_pending
    counts := p.length_uploaded_add
    bytes := hbytes.symm ▸ hwhole
    fits := ?_
    complete := isComplete_iff }
  · rw [pending, List.mem_filter, Bool.not_eq_true']
  · have hsums := foldlM_size p.uploaded 0 (by rwa [Nat.zero_add])
    rwa [Nat.zero_add, ← hbytes] at hsums

/-- Marking the part at a position is told to have found one just if there is one, changes nothing
else, and makes no part pending. -/
structure Marks (p : Plan) (i : Nat) : Prop where
  told : (p.tryMark i).1 = true ↔ i < p.count
  others : ∀ j, j ≠ i → (p.tryMark i).2.chunks[j]? = p.chunks[j]?
  marked : ∀ c, p.chunks[i]? = some c →
    (p.tryMark i).2.chunks[i]? = some { c with uploaded := true }
  spares : ∀ c ∈ (p.tryMark i).2.pending, c ∈ p.pending

theorem Numbered.marks (h : p.Numbered) (i : Nat) : p.Marks i := by
  constructor
  · rw [tryMark_eq]
    exact decide_eq_true_iff
  · intro j hj
    rw [tryMark_eq]
    simp only [Plan.mark, List.getElem?_modify, if_neg (Ne.symm hj)]
    exact Option.map_id'
  · intro c hc
    rw [tryMark_eq]
    simp only [Plan.mark, List.getElem?_modify, hc, if_true]
    rfl
  · intro c hc
    rw [tryMark_eq, h.pending_mark] at hc
    exact (List.mem_filter.mp hc).1

/-- Exactly the parts that are wanted are pending, whatever was known before. -/
theorem Numbered.mem_index_pending_retain (h : p.Numbered) (needed : List Nat) (n : Nat) :
    n ∈ (p.retain needed).pending.map Chunk.index ↔ n ∈ needed ∧ n < p.count := by
  rw [List.mem_map]
  constructor
  · rintro ⟨c, hc, rfl⟩
    obtain ⟨hmem, hpending⟩ := List.mem_filter.mp hc
    obtain ⟨d, hd, rfl⟩ := List.mem_map.mp hmem
    rw [Bool.not_not, List.contains_iff_mem] at hpending
    have hlt : d.index < p.count := h.index_lt hd
    exact ⟨hpending, hlt⟩
  · rintro ⟨hneeded, hlt⟩
    obtain ⟨d, hd, rfl⟩ := h.exists_index hlt
    refine ⟨_, List.mem_filter.mpr ⟨List.mem_map_of_mem hd, ?_⟩, rfl⟩
    rw [Bool.not_not, List.contains_iff_mem]
    exact hneeded

end Plan

namespace Sizing

/-- Whatever becomes known of the parts of a plan, in any order: no part moves, the books balance,
marking a part does that and nothing else, and asking for parts leaves exactly these pending. -/
theorem books_balance (s : Sizing) (total : Nat) (htotal : total < UInt64.size)
    (us : List Plan.Update) :
    let p := (s.plan total).afterUpdates us
    p.outline = (s.plan total).outline ∧ p.totalSize = total ∧ p.partSize = s.partSize total ∧
      p.Balanced ∧ (∀ i, p.Marks i) ∧
      ∀ needed, (p.retain needed).Balanced ∧
        ∀ n, n ∈ (p.retain needed).pending.map Chunk.index ↔ n ∈ needed ∧ n < p.count := by
  intro p
  have hplan : (s.plan total).Exact := Plan.exact_cut total (s.partSize_pos total)
  have hsize : (s.plan total).totalSize = total := Plan.totalSize_cut _ _
  have hbalanced : ∀ vs, ((s.plan total).afterUpdates vs).Numbered ∧
      ((s.plan total).afterUpdates vs).Balanced := by
    intro vs
    have houtline := Plan.outline_after (s.plan total) vs
    have hsame := (Plan.sizes_after (s.plan total) vs).1
    have hnumbered := (Plan.numbered_cut total (s.partSize total)).of_outline houtline
    refine ⟨hnumbered, Plan.balanced_of_numbered hnumbered ?_ ?_⟩
    · rw [Plan.sum_size_of_outline houtline, hplan.sum_size, hsame]
    · rw [hsame, hsize]
      exact htotal
  obtain ⟨hnumbered, hbooks⟩ := hbalanced us
  obtain ⟨htotal', hpart⟩ := Plan.sizes_after (s.plan total) us
  refine ⟨Plan.outline_after _ us, htotal'.trans hsize, hpart.trans (Plan.partSize_cut _ _), hbooks,
    hnumbered.marks, fun needed => ⟨?_, hnumbered.mem_index_pending_retain needed⟩⟩
  have hmore := (hbalanced (us ++ [.retain needed])).2
  rw [Plan.afterUpdates, List.foldl_append] at hmore
  exact hmore

/-- Four parts: a position without a part is marked, parts are asked for out of order, one of them
twice and one that there is not, and one of them is marked. -/
theorem books_balance_four :
    let s : Sizing := { hint := 4 }
    let us : List Plan.Update := [.mark 7, .mark 1, .retain [9, 2, 0, 2], .mark 0]
    15 < UInt64.size ∧ ((s.plan 15).afterUpdates us).pending = [⟨2, 8, 4, false⟩] ∧
      ((s.plan 15).afterUpdates us).uploadedBytes + 4 = 15 := by
  intro s us
  have hfits : 15 < UInt64.size := by decide
  have hpending : ((s.plan 15).afterUpdates us).pending = [⟨2, 8, 4, false⟩] := by decide
  obtain ⟨-, htotal, -, hbooks, -⟩ := books_balance s 15 hfits us
  refine ⟨hfits, hpending, ?_⟩
  have hbytes := hbooks.bytes
  rwa [hpending, htotal] at hbytes

end Sizing

end ResumableUpload
