import ResumableUpload.Proofs.Digest.Stream

/-!
# Two readers of a file

A file is read twice: once for the digests, range by range and a window at a time, and once more
part by part when the parts are sent. Both find all that lies within the file, and the bytes of a
part are the same for both (`readRanges_of_within`, `readChunk_of_within`, `readChunk_ok`).
-/

namespace ResumableUpload

/-- The part lies within so many bytes, which no reader refuses. -/
structure Chunk.Within (c : Chunk) (size : Nat) : Prop where
  stop : c.offset + c.size ≤ size
  offset : c.offset < Digest.offsetBound
  size : c.size < Digest.offsetBound

namespace Digest

variable {content : ByteArray} {writable : Bool}

/-- A range within a file is read, however many windows it takes. -/
theorem readRange_of_le {offset size : Nat} (h : offset + size ≤ content.size) (p : Progress) :
    ∃ q, readRange (.file content writable) offset size p = .ok q := by
  induction size using Nat.strongRecOn generalizing offset p with
  | ind size ih =>
    unfold readRange
    split
    · exact ⟨p, rfl⟩
    · next hpos =>
      have hwindow : 0 < min size windowSize := by
        have : 0 < windowSize := by decide
        omega
      have hwant : ¬ content.size < offset + min size windowSize := by omega
      dsimp only
      rw [if_neg hwant]
      exact ih (size - min size windowSize) (by omega) (by omega) _

/-- The parts within a file are read one after the other. -/
theorem readRanges_of_within {chunks : List Chunk} (h : ∀ c ∈ chunks, c.Within content.size)
    (p : Progress) : ∃ r, readRanges (.file content writable) chunks p = .ok r := by
  induction chunks generalizing p with
  | nil => exact ⟨(p, []), rfl⟩
  | cons c rest ih =>
    have hc : c.Within content.size := h c List.mem_cons_self
    obtain ⟨q, hq⟩ : ∃ q, readRange (.file content writable) c.offset c.size
        { p with block := {} } = .ok q := readRange_of_le hc.stop _
    obtain ⟨⟨last, blocks⟩, hrest⟩ := ih (fun d hd => h d (List.mem_cons_of_mem c hd)) q
    refine ⟨(last, q.block.text :: blocks), ?_⟩
    rw [readRanges, if_neg (Nat.not_le.mpr hc.offset), hq]
    dsimp only
    rw [hrest]

variable {files : Files} {path : String}

/-- A file is digested if the plan keeps within it. -/
theorem ofFile_of_within {plan : Plan} (hfind : files.find path = .ok (.file content writable))
    (h : ∀ c ∈ plan.chunks, c.Within content.size) : ∃ d, ofFile files path plan = .ok d := by
  obtain ⟨⟨p, blocks⟩, hread⟩ :
      ∃ r, readRanges (.file content writable) plan.chunks {} = .ok r := readRanges_of_within h {}
  refine ⟨⟨p.content.text, p.slice.text, blocks⟩, ?_⟩
  rw [ofFile, hfind]
  dsimp only
  rw [hread]

/-- What is read of a part to be sent is its bytes. -/
theorem readChunk_ok {c : Chunk} {payload : ByteArray}
    (hfind : files.find path = .ok (.file content writable))
    (h : readChunk files path c.offset c.size = .ok payload) :
    payload = c.bytes content ∧ payload.size = c.size := by
  unfold readChunk at h
  rw [hfind] at h
  dsimp only at h
  split at h
  · cases h
  · split at h
    · cases h
    · split at h
      · cases h
      · next hin =>
        injection h with h
        subst h
        refine ⟨rfl, ?_⟩
        rw [ByteArray.size_extract]
        omega

theorem readChunk_of_within {c : Chunk}
    (hfind : files.find path = .ok (.file content writable)) (h : c.Within content.size) :
    readChunk files path c.offset c.size = .ok (c.bytes content) := by
  have hin : ¬ (content.size < c.offset + c.size ∧ 0 < c.size) := by
    have := h.stop
    omega
  rw [readChunk, hfind]
  dsimp only
  rw [if_neg (Nat.not_le.mpr h.offset), if_neg (Nat.not_le.mpr h.size), if_neg hin]
  rfl

/-! ## Lower case -/

/-- The text has lower-case hexadecimal digits only. -/
def IsLowerHex (text : String) : Prop := ∀ ch ∈ text.toList, ch ∈ "0123456789abcdef".toList

theorem digit_mem {n : Nat} (h : n < 16) :
    Text.Hex.digit n ∈ "0123456789abcdef".toList := by
  have hall : ∀ m : Fin 16, Text.Hex.digit m ∈ "0123456789abcdef".toList := by decide
  exact hall ⟨n, h⟩

theorem isLowerHex_ofBytes (bytes : ByteArray) : IsLowerHex (Text.Hex.ofBytes bytes) := by
  intro ch hch
  rw [Text.Hex.ofBytes, String.toList_ofList] at hch
  obtain ⟨b, -, hb⟩ := List.mem_flatMap.mp hch
  have hlt : b.toNat < 256 := b.toNat_lt
  rw [Text.Hex.ofByte, List.mem_cons, List.mem_singleton] at hb
  rcases hb with rfl | rfl
  · exact digit_mem (by omega)
  · exact digit_mem (by omega)

/-- A digest is told in lower case. -/
theorem isLowerHex_md5 (bytes : ByteArray) : IsLowerHex (md5 bytes) := isLowerHex_ofBytes _

end Digest

end ResumableUpload
