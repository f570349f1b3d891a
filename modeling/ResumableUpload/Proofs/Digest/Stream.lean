import ResumableUpload.Digest.File

/-!
# Digests of bytes that come in pieces

Bytes that come in pieces give the digest that they give at once (`Md5.update_append`). A file is
read window by window, and the digests under way see no difference (`readRange_ok`), so each part is
announced with the digest of its bytes (`blockList_ofFile`).
-/

namespace ResumableUpload

/-- What a place holds; a folder has no bytes. -/
def Node.content : Node → ByteArray
  | .file content _ => content
  | .folder _ => .empty

/-- The bytes of a part. -/
def Chunk.bytes (c : Chunk) (content : ByteArray) : ByteArray :=
  content.extract c.offset (c.offset + c.size)

namespace Digest

/-! ## Bytes of a piece -/

theorem get!_eq_data (a : ByteArray) (i : Nat) : a.get! i = a.data[i]! := by cases a; rfl

theorem get!_append_left {a b : ByteArray} {i : Nat} (h : i < a.size) :
    (a ++ b).get! i = a.get! i := by
  have hdata : i < a.data.size := h
  rw [get!_eq_data, get!_eq_data, ByteArray.data_append, getElem!_pos (a.data ++ b.data) i
    (by rw [Array.size_append]; omega), getElem!_pos a.data i hdata,
    Array.getElem_append_left hdata]

theorem get!_extract {a : ByteArray} {start stop i : Nat} (h : start + i < stop)
    (hstop : stop ≤ a.size) : (a.extract start stop).get! i = a.get! (start + i) := by
  have hsize : i < (a.extract start stop).data.size := by
    rw [ByteArray.data_extract, Array.size_extract]
    have : a.data.size = a.size := rfl
    omega
  have hin : start + i < a.data.size := Nat.lt_of_lt_of_le h hstop
  rw [get!_eq_data, get!_eq_data, getElem!_pos _ i hsize, getElem!_pos _ (start + i) hin]
  simp only [ByteArray.data_extract, Array.getElem_extract]

theorem extract_congr {a : ByteArray} {i j k : Nat}
    (h : min (j - i) (a.size - i) = min (k - i) (a.size - i)) : a.extract i j = a.extract i k := by
  apply ByteArray.ext
  rw [ByteArray.data_extract, ByteArray.data_extract, Array.extract_eq_extract_right]
  exact h

/-! ## Blocks -/

/-- Each step takes one of the sixteen words of its block. -/
theorem mix_lt (w : Words) (i : Nat) : (mix w i).2 < 16 := by
  unfold mix
  split
  · next h => exact h
  · split
    · exact Nat.mod_lt _ (by decide)
    · split <;> exact Nat.mod_lt _ (by decide)

/-- A block is known by its sixty-four bytes. -/
theorem block_congr {a b : ByteArray} {i j : Nat}
    (h : ∀ k, k < 64 → a.get! (i + k) = b.get! (j + k)) (w : Words) :
    block a i w = block b j w := by
  have hword : ∀ k, k < 16 → wordAt a (i + 4 * k) = wordAt b (j + 4 * k) := by
    intro k hk
    have h0 := h (4 * k) (by omega)
    have h1 := h (4 * k + 1) (by omega)
    have h2 := h (4 * k + 2) (by omega)
    have h3 := h (4 * k + 3) (by omega)
    simp only [wordAt, Nat.add_assoc] at h0 h1 h2 h3 ⊢
    rw [h0, h1, h2, h3]
  have hstep : step a i = step b j := by
    funext w n
    simp only [step, hword _ (mix_lt w n)]
  rw [block, block, hstep]

-- by unfolding alone: comparing blocks by what they compute never ends
theorem blocks_succ (data : ByteArray) (start n : Nat) (w : Words) :
    blocks data start (n + 1) w = blocks data (start + 64) n (block data start w) := by
  delta blocks
  rfl

theorem blocks_add (data : ByteArray) (start n k : Nat) (w : Words) :
    blocks data start (n + k) w = blocks data (start + 64 * n) k (blocks data start n w) := by
  induction n generalizing start w with
  | zero => rw [Nat.zero_add]; rfl
  | succ n ih =>
    have hstart : start + 64 + 64 * n = start + 64 * (n + 1) := by omega
    rw [Nat.succ_add, blocks_succ, ih, blocks_succ, hstart]

/-- Blocks are known by their bytes. -/
theorem blocks_congr {a b : ByteArray} {i j n : Nat}
    (h : ∀ k, k < 64 * n → a.get! (i + k) = b.get! (j + k)) (w : Words) :
    blocks a i n w = blocks b j n w := by
  induction n generalizing i j w with
  | zero => rfl
  | succ n ih =>
    have hfirst : block a i w = block b j w := block_congr (fun k hk => h k (by omega)) w
    rw [blocks_succ, blocks_succ, hfirst]
    apply ih
    intro k hk
    have hk' := h (64 + k) (by omega)
    rwa [← Nat.add_assoc, ← Nat.add_assoc] at hk'

/-! ## Updates -/

/-- What is left of some bytes when more have come is the rest of them all. -/
theorem rest_append (data more : ByteArray) {done : Nat} (h : done ≤ data.size) :
    data.extract done data.size ++ more = (data ++ more).extract done (data ++ more).size := by
  have hmore : more.extract (done - data.size) (data.size + more.size - data.size) = more := by
    rw [Nat.sub_eq_zero_of_le h, Nat.add_sub_cancel_left]
    exact ByteArray.extract_zero_size
  have hdata : data.extract done (data.size + more.size) = data.extract done data.size :=
    extract_congr (by omega)
  rw [ByteArray.size_append, ByteArray.extract_append, hmore, hdata]

/-- Bytes that come in two pieces give the digest that they give at once. -/
theorem Md5.update_append (m : Md5) (a b : ByteArray) :
    (m.update a).update b = m.update (a ++ b) := by
  -- `data` waits or comes with the first piece; `rest` waits after it, with the second piece
  obtain ⟨words, size, waiting⟩ := m
  simp only [update, ← ByteArray.append_assoc]
  generalize waiting ++ a = data
  generalize hfull : data.size / 64 = full
  have hle : 64 * full ≤ data.size := by omega
  rw [rest_append data b hle]
  generalize hall : data ++ b = all
  have hsize : all.size = data.size + b.size := by rw [← hall, ByteArray.size_append]
  have hcount : (all.extract (64 * full) all.size).size = all.size - 64 * full := by
    rw [ByteArray.size_extract, Nat.min_self]
  have hadd : all.size / 64 = full + (all.size - 64 * full) / 64 := by omega
  have hfirst : blocks data 0 full words = blocks all 0 full words := by
    apply blocks_congr
    intro k hk
    rw [← hall, get!_append_left (by omega)]
  have hsecond : ∀ w, blocks (all.extract (64 * full) all.size) 0 ((all.size - 64 * full) / 64) w
      = blocks all (0 + 64 * full) ((all.size - 64 * full) / 64) w := by
    intro w
    apply blocks_congr
    intro k hk
    rw [get!_extract (by omega) (Nat.le_refl _)]
    congr 1
    omega
  rw [hcount, hsecond, hfirst, ← blocks_add, ← hadd, ByteArray.extract_extract,
    ByteArray.size_append]
  congr 1
  · omega
  · congr 1
    · omega
    · omega

/-! ## Windows -/

/-- The beginning of bytes that come in two pieces. -/
theorem beginning_append (a b : ByteArray) (n : Nat) :
    (a ++ b).extract 0 (min n (a ++ b).size)
      = a.extract 0 (min n a.size) ++ b.extract 0 (min (n - a.size) b.size) := by
  have ha : a.extract 0 (min n (a.size + b.size)) = a.extract 0 (min n a.size) :=
    extract_congr (by omega)
  have hb : b.extract 0 (min n (a.size + b.size) - a.size)
      = b.extract 0 (min (n - a.size) b.size) := extract_congr (by omega)
  rw [ByteArray.extract_append, ByteArray.size_append, Nat.zero_sub, ha, hb]

namespace Progress

variable {p : Progress}

theorem slice_take_of_lt (h : p.consumed < sliceSize) (a : ByteArray) :
    (p.take a).slice = p.slice.update (a.extract 0 (min (sliceSize - p.consumed) a.size)) :=
  if_pos h

theorem slice_take_of_le (h : sliceSize ≤ p.consumed) (a : ByteArray) :
    (p.take a).slice = p.slice :=
  if_neg (Nat.not_lt.mpr h)

/-- Windows that follow one another are as good as one. -/
theorem take_append (p : Progress) (a b : ByteArray) : (p.take a).take b = p.take (a ++ b) := by
  have hafter : (p.take a).consumed = p.consumed + a.size := rfl
  have hslice : ((p.take a).take b).slice = (p.take (a ++ b)).slice := by
    by_cases hp : p.consumed < sliceSize
    · rw [slice_take_of_lt hp, beginning_append]
      by_cases ha : (p.take a).consumed < sliceSize
      · have hrest : sliceSize - (p.take a).consumed = sliceSize - p.consumed - a.size := by omega
        rw [slice_take_of_lt ha, slice_take_of_lt hp, Md5.update_append, hrest]
      · have hnone : sliceSize - p.consumed - a.size = 0 := by omega
        rw [slice_take_of_le (by omega), slice_take_of_lt hp, hnone, Nat.zero_min,
          ByteArray.extract_same, ByteArray.append_empty]
    · rw [slice_take_of_le (by omega), slice_take_of_le (by omega), slice_take_of_le (by omega)]
  have hconsumed : ((p.take a).take b).consumed = (p.take (a ++ b)).consumed := by
    show p.consumed + a.size + b.size = p.consumed + (a ++ b).size
    rw [ByteArray.size_append, Nat.add_assoc]
  have hblock : ((p.take a).take b).block = (p.take (a ++ b)).block := Md5.update_append ..
  have hcontent : ((p.take a).take b).content = (p.take (a ++ b)).content := Md5.update_append ..
  generalize (p.take a).take b = q at *
  generalize p.take (a ++ b) = r at *
  cases q
  cases r
  congr

end Progress

/-- A range that is read comes from a file that has it, unless there is nothing to read. -/
theorem readRange_ok {node : Node} {offset size : Nat} {p q : Progress}
    (h : readRange node offset size p = .ok q) :
    (size = 0 ∧ q = p) ∨ ∃ content writable, node = .file content writable ∧
      offset + size ≤ content.size ∧ q = p.take (content.extract offset (offset + size)) := by
  induction size using Nat.strongRecOn generalizing offset p with
  | ind size ih =>
    unfold readRange at h
    split at h
    · next hzero =>
      injection h with h
      exact .inl ⟨hzero, h.symm⟩
    · next hpos =>
      split at h
      · cases h
      · next content writable =>
        dsimp only at h
        split at h
        · cases h
        · next hwant =>
          have hwindow : 0 < min size windowSize := by
            have : 0 < windowSize := by decide
            omega
          refine .inr ⟨content, writable, rfl, ?_⟩
          rcases ih (size - min size windowSize) (by omega) h with
            ⟨hzero, rfl⟩ | ⟨_, _, hnode, hin, rfl⟩
          · have hall : min size windowSize = size := by omega
            rw [hall] at hwant ⊢
            exact ⟨by omega, rfl⟩
          · injection hnode with hcontent _
            subst hcontent
            have hend : offset + min size windowSize + (size - min size windowSize)
                = offset + size := by omega
            rw [hend] at hin ⊢
            refine ⟨hin, ?_⟩
            rw [Progress.take_append, ← ByteArray.extract_eq_extract_append_extract] <;> omega

/-! ## Parts -/

/-- A digest that has taken nothing is that of no bytes. -/
theorem text_start : ({} : Md5).text = md5 .empty := rfl

/-- Each part of a file is announced with the digest of its bytes. -/
theorem readRanges_ok {node : Node} {chunks : List Chunk} {p q : Progress} {texts : List String}
    (h : readRanges node chunks p = .ok (q, texts)) :
    texts = chunks.map fun c => md5 (c.bytes node.content) := by
  induction chunks generalizing p q texts with
  | nil =>
    injection h with h
    injection h with _ h
    exact h.symm
  | cons c rest ih =>
    unfold readRanges at h
    split at h
    · cases h
    · split at h
      · cases h
      · next after hrange =>
        split at h
        · cases h
        · next last more hrest =>
          injection h with h
          injection h with _ h
          subst h
          have htext : after.block.text = md5 (c.bytes node.content) := by
            rcases readRange_ok hrange with ⟨hzero, rfl⟩ | ⟨content, _, rfl, -, rfl⟩
            · have hempty : c.bytes node.content = .empty := by
                rw [Chunk.bytes, hzero, Nat.add_zero, ByteArray.extract_same]
              rw [hempty]
              exact text_start
            · rfl
          rw [List.map_cons, htext, ih hrest]

/-- Each part of a file is announced with the digest of its bytes. -/
theorem blockList_ofFile {files : Files} {path : String} {plan : Plan} {d : FileDigests}
    (h : ofFile files path plan = .ok d) :
    ∃ node, files.find path = .ok node ∧
      d.blockList = plan.chunks.map fun c => md5 (c.bytes node.content) := by
  unfold ofFile at h
  split at h
  · cases h
  · next node hnode =>
    split at h
    · cases h
    · next hranges =>
      injection h with h
      subst h
      exact ⟨node, hnode, readRanges_ok hranges⟩

/-! ## Texts of digests -/

theorem length_toList (bytes : ByteArray) : bytes.toList.length = bytes.size := by
  have hloop : ∀ (n i : Nat) (r : List UInt8), bytes.size - i = n →
      (ByteArray.toList.loop bytes i r).length = r.length + n := by
    intro n
    induction n with
    | zero =>
      intro i r hi
      rw [ByteArray.toList.loop, if_neg (by omega), List.length_reverse, Nat.add_zero]
    | succ n ih =>
      intro i r hi
      rw [ByteArray.toList.loop, if_pos (by omega), ih (i + 1) _ (by omega), List.length_cons]
      omega
  have hall := hloop bytes.size 0 [] (by omega)
  rwa [List.length_nil, Nat.zero_add] at hall

theorem length_ofBytes (bytes : ByteArray) :
    (Text.Hex.ofBytes bytes).length = 2 * bytes.size := by
  have hpairs : ∀ bytes : List UInt8,
      (bytes.flatMap Text.Hex.ofByte).length = 2 * bytes.length := by
    intro bytes
    induction bytes with
    | nil => rfl
    | cons b rest ih =>
      rw [List.flatMap_cons, List.length_append, ih, List.length_cons]
      show 2 + _ = _
      omega
  rw [Text.Hex.ofBytes, String.length_ofList, hpairs, length_toList]

/-- A digest has thirty-two digits. -/
theorem Md5.length_text (m : Md5) : m.text.length = 32 := by
  rw [Md5.text, length_ofBytes]
  rfl

theorem length_contentMd5 {files : Files} {path : String} {plan : Plan} {d : FileDigests}
    (h : ofFile files path plan = .ok d) : d.contentMd5.length = 32 := by
  unfold ofFile at h
  split at h
  · cases h
  · split at h
    · cases h
    · injection h with h
      subst h
      exact Md5.length_text _

end Digest

end ResumableUpload
