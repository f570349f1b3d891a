import ResumableUpload.Plan.Basic

/-!
# Marks on a plan

Parts are marked by position and asked for by number. In a plan whose numbers are the positions
(`Numbered`), which every cut gives and every mark keeps, the two agree:

* marking parts takes exactly the parts with these numbers off what is pending (`pending_markAll`);
* asking for some numbers leaves exactly the parts with these numbers pending (`pending_retain`).
-/

namespace ResumableUpload.Plan

variable {p : Plan}

/-- The number of each part is its position. -/
def Numbered (p : Plan) : Prop := p.chunks.map Chunk.index = List.range p.count

/-- No part is on the server yet. -/
def Fresh (p : Plan) : Prop := ∀ c ∈ p.chunks, c.uploaded = false

theorem numbered_cut (totalSize partSize : Nat) : (cut totalSize partSize).Numbered :=
  index_chunks_cut totalSize partSize

theorem fresh_cut (totalSize partSize : Nat) : (cut totalSize partSize).Fresh := by
  intro c hc
  unfold cut at hc
  split at hc
  · rw [List.mem_singleton] at hc
    rw [hc]
  · obtain ⟨i, -, rfl⟩ := List.mem_map.mp hc
    rfl

@[simp] theorem partSize_cut (totalSize partSize : Nat) :
    (cut totalSize partSize).partSize = partSize := by
  unfold cut; split <;> rfl

/-! ## Numbers are positions -/

theorem Numbered.index_eq (h : p.Numbered) {i : Nat} {c : Chunk} (hc : p.chunks[i]? = some c) :
    c.index = i := by
  have hi : (p.chunks.map Chunk.index)[i]? = some c.index := by rw [List.getElem?_map, hc]; rfl
  rw [h, List.getElem?_eq_some_iff] at hi
  obtain ⟨hlt, hget⟩ := hi
  rw [← hget, List.getElem_range]

theorem Numbered.index_lt (h : p.Numbered) {c : Chunk} (hc : c ∈ p.chunks) :
    c.index < p.count := by
  have hm : c.index ∈ p.chunks.map Chunk.index := List.mem_map_of_mem hc
  rw [h] at hm
  exact List.mem_range.mp hm

theorem Numbered.eq_of_index_eq (h : p.Numbered) {c d : Chunk} (hc : c ∈ p.chunks)
    (hd : d ∈ p.chunks) (hi : c.index = d.index) : c = d := by
  obtain ⟨i, hci⟩ := List.getElem?_of_mem hc
  obtain ⟨j, hdj⟩ := List.getElem?_of_mem hd
  have hij : i = j := by rw [← h.index_eq hci, ← h.index_eq hdj, hi]
  subst hij
  rw [hci] at hdj
  exact Option.some.inj hdj

/-- Every number below the count is that of a part. -/
theorem Numbered.exists_index (h : p.Numbered) {i : Nat} (hi : i < p.count) :
    ∃ c ∈ p.chunks, c.index = i := by
  have hm : i ∈ p.chunks.map Chunk.index := by rw [h]; exact List.mem_range.mpr hi
  exact List.mem_map.mp hm

theorem mem_chunks_of_mem_pending {c : Chunk} (hc : c ∈ p.pending) : c ∈ p.chunks :=
  (List.mem_filter.mp hc).1

/-- Pending parts are listed by strictly increasing number. -/
theorem Numbered.pairwise_pending (h : p.Numbered) :
    (p.pending.map Chunk.index).Pairwise (· < ·) := by
  have hsub : (p.pending.map Chunk.index).Sublist (p.chunks.map Chunk.index) :=
    List.Sublist.map _ List.filter_sublist
  rw [h] at hsub
  exact List.pairwise_lt_range.sublist hsub

theorem isComplete_iff : p.isComplete = true ↔ p.pending = [] := by
  rw [isComplete, pending, List.all_eq_true, List.filter_eq_nil_iff]
  simp only [Bool.not_eq_true, Bool.not_eq_false']

/-! ## Marking -/

/-- In a numbered plan a part is found by its number. -/
theorem Numbered.chunks_mark (h : p.Numbered) (i : Nat) :
    (p.mark i).chunks
      = p.chunks.map fun c => if c.index = i then { c with uploaded := true } else c := by
  apply List.ext_getElem?
  intro j
  rw [mark, List.getElem?_modify, List.getElem?_map]
  cases hj : p.chunks[j]? with
  | none => simp
  | some c =>
    have hc : c.index = j := h.index_eq hj
    by_cases hij : i = j
    · simp [hij, hc]
    · have hji : ¬ j = i := fun e => hij e.symm
      simp [hij, hc, hji]

theorem Numbered.mark (h : p.Numbered) (i : Nat) : (p.mark i).Numbered := by
  have hidx : (p.mark i).chunks.map Chunk.index = p.chunks.map Chunk.index := by
    rw [h.chunks_mark, List.map_map]
    apply List.map_congr_left
    intro c _
    simp only [Function.comp_apply]
    split <;> rfl
  rw [Numbered, count_mark, hidx]
  exact h

/-- Marking a part takes it, and nothing else, off what is pending. -/
theorem Numbered.pending_mark (h : p.Numbered) (i : Nat) :
    (p.mark i).pending = p.pending.filter fun c => c.index ≠ i := by
  rw [pending, pending, h.chunks_mark, List.filter_map, List.filter_filter]
  have hkeep : ∀ c : Chunk,
      ((fun c : Chunk => !c.uploaded) ∘
          fun c => if c.index = i then { c with uploaded := true } else c) c
        = (decide (c.index ≠ i) && !c.uploaded) := by
    intro c
    by_cases hc : c.index = i <;> simp [hc]
  rw [List.filter_congr fun c _ => hkeep c]
  have hid : ∀ c ∈ p.chunks.filter (fun c => decide (c.index ≠ i) && !c.uploaded),
      (if c.index = i then { c with uploaded := true } else c) = c := by
    intro c hc
    have hne : c.index ≠ i := by
      have := (List.mem_filter.mp hc).2
      simp only [Bool.and_eq_true, decide_eq_true_eq] at this
      exact this.1
    rw [if_neg hne]
  rw [List.map_congr_left hid, List.map_id']

/-- The plan with several parts marked. -/
def markAll (p : Plan) (positions : List Nat) : Plan := positions.foldl mark p

theorem Numbered.markAll (h : p.Numbered) (is : List Nat) : (p.markAll is).Numbered := by
  induction is generalizing p with
  | nil => exact h
  | cons i rest ih => exact ih (h.mark i)

@[simp] theorem count_markAll (p : Plan) (is : List Nat) : (p.markAll is).count = p.count := by
  induction is generalizing p with
  | nil => rfl
  | cons i rest ih => exact (ih (p.mark i)).trans (count_mark p i)

@[simp] theorem sizes_markAll (p : Plan) (is : List Nat) :
    (p.markAll is).totalSize = p.totalSize ∧ (p.markAll is).partSize = p.partSize := by
  induction is generalizing p with
  | nil => exact ⟨rfl, rfl⟩
  | cons i rest ih => exact ih (p.mark i)

/-- Marking parts takes them, and nothing else, off what is pending. -/
theorem Numbered.pending_markAll (h : p.Numbered) (is : List Nat) :
    (p.markAll is).pending = p.pending.filter fun c => c.index ∉ is := by
  induction is generalizing p with
  | nil => exact (List.filter_eq_self.mpr fun _ _ => by simp).symm
  | cons i rest ih =>
    have hstep : (p.markAll (i :: rest)).pending
        = (p.mark i).pending.filter fun c => c.index ∉ rest := ih (h.mark i)
    rw [hstep, h.pending_mark, List.filter_filter]
    apply List.filter_congr
    intro c _
    by_cases hc : c.index = i <;> simp [hc]

/-! ## Asking for parts -/

theorem Numbered.retain (h : p.Numbered) (needed : List Nat) : (p.retain needed).Numbered := by
  rw [Numbered, count_retain]
  show (p.chunks.map _).map Chunk.index = _
  rw [List.map_map]
  exact h

/-- Of a plan with nothing on the server, exactly the parts asked for are pending. -/
theorem Fresh.pending_retain (h : p.Fresh) (needed : List Nat) :
    (p.retain needed).pending = p.chunks.filter fun c => needed.contains c.index := by
  rw [pending, Plan.retain, List.filter_map]
  have hkeep : ∀ c : Chunk,
      ((fun c : Chunk => !c.uploaded) ∘
          fun c => { c with uploaded := !needed.contains c.index }) c
        = needed.contains c.index := by
    intro c; simp
  rw [List.filter_congr fun c _ => hkeep c]
  have hid : ∀ c ∈ p.chunks.filter (fun c => needed.contains c.index),
      { c with uploaded := !needed.contains c.index } = c := by
    intro c hc
    obtain ⟨hmem, hneeded⟩ := List.mem_filter.mp hc
    have hup : c.uploaded = false := h c hmem
    rw [hneeded, Bool.not_true, ← hup]
  rw [List.map_congr_left hid, List.map_id']

theorem Fresh.mem_pending_retain (h : p.Fresh) {needed : List Nat} {c : Chunk} :
    c ∈ (p.retain needed).pending ↔ c ∈ p.chunks ∧ c.index ∈ needed := by
  rw [h.pending_retain, List.mem_filter, List.contains_iff_mem]

/-- Asking for every part of a plan with nothing on the server changes nothing. -/
theorem Fresh.retain_all (h : p.Fresh) (hn : p.Numbered) :
    p.retain (List.range p.count) = p := by
  have hid : ∀ c ∈ p.chunks,
      { c with uploaded := !(List.range p.count).contains c.index } = c := by
    intro c hc
    have hin : (List.range p.count).contains c.index = true := by
      rw [List.contains_iff_mem, List.mem_range]
      exact hn.index_lt hc
    have hup : c.uploaded = false := h c hc
    rw [hin, Bool.not_true, ← hup]
  rw [Plan.retain, List.map_congr_left hid, List.map_id']

end ResumableUpload.Plan
