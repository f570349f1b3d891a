import ResumableUpload.Proofs.Digest.Reading
import ResumableUpload.Proofs.Plan.Partition

/-!
# Digests of a whole file

A message has one digest, which is made by filling the message up to whole blocks and taking them
all (`messageDigest`). The digests of a file are made differently: the file is read range by range
and a window at a time, and three digests grow on the way, one of them only up to its own end. What
they have taken at any moment depends on the bytes alone (`Progress.Of`), not on where windows and
ranges end.

So the digests that are told are those of the bytes as a whole, for every plan that keeps within
its file; a range that goes past the end of the file leaves none at all (`ofFile_whole`). For a
plan made here the bytes are the first ones of the file, whatever the size of a part.
-/

namespace ResumableUpload

namespace Digest

/-! ## A message at once -/

/-- The message filled up to whole blocks. -/
def filled (message : ByteArray) : ByteArray := message ++ Md5.padding message.size

/-- The digest of a message: the words that all its blocks leave, in hexadecimal digits. -/
def messageDigest (message : ByteArray) : String :=
  let w := blocks (filled message) 0 ((filled message).size / 64) .start
  Text.Hex.ofBytes
    ⟨(Md5.wordBytes w.a ++ Md5.wordBytes w.b ++ Md5.wordBytes w.c ++ Md5.wordBytes w.d).toArray⟩

/-- A digest that has taken a message at once is the digest of the message. -/
theorem md5_eq_messageDigest (message : ByteArray) : md5 message = messageDigest message := by
  have hsize : (({} : Md5).update message).size = message.size := Nat.zero_add _
  have hfinish : (({} : Md5).update message).finish
      = blocks (filled message) 0 ((filled message).size / 64) .start := by
    rw [Md5.finish, Md5.update_append, hsize, ← filled]
    show blocks (.empty ++ filled message) 0 ((.empty ++ filled message).size / 64) .start = _
    rw [ByteArray.empty_append]
  rw [md5, Md5.text, hfinish]
  rfl

example : messageDigest .empty = "d41d8cd98f00b204e9800998ecf8427e" := by decide +kernel

/-! ## Bytes in ranges -/

/-- The bytes that count for the digest of the beginning. -/
def beginning (bytes : ByteArray) : ByteArray := bytes.extract 0 (min sliceSize bytes.size)

/-- The bytes of some parts, joined in their order. -/
def joined (content : ByteArray) (chunks : List Chunk) : ByteArray :=
  (chunks.map fun c => c.bytes content).foldr (· ++ ·) .empty

theorem joined_cons (content : ByteArray) (c : Chunk) (rest : List Chunk) :
    joined content (c :: rest) = c.bytes content ++ joined content rest := rfl

/-- The digests of some parts of a file, all of whose bytes are there at once. -/
def FileDigests.atOnce (content : ByteArray) (chunks : List Chunk) : FileDigests where
  contentMd5 := messageDigest (joined content chunks)
  sliceMd5 := messageDigest (beginning (joined content chunks))
  blockList := chunks.map fun c => messageDigest (c.bytes content)

/-- The digests under way after some bytes; that of the part is left out. -/
structure Progress.Of (p : Progress) (seen : ByteArray) : Prop where
  content : p.content = ({} : Md5).update seen
  slice : p.slice = ({} : Md5).update (beginning seen)
  consumed : p.consumed = seen.size

namespace Progress.Of

variable {p : Progress} {seen : ByteArray}

theorem start : ({} : Progress).Of .empty := ⟨rfl, rfl, rfl⟩

/-- Another part starts with a digest of its own. -/
theorem fresh (h : p.Of seen) : Progress.Of { p with block := {} } seen :=
  ⟨h.content, h.slice, h.consumed⟩

/-- A window may end anywhere, also beyond the end of the beginning. -/
theorem take (h : p.Of seen) (window : ByteArray) : (p.take window).Of (seen ++ window) where
  content := by
    show p.content.update window = _
    rw [h.content, Md5.update_append]
  slice := by
    rw [beginning, beginning_append]
    by_cases hp : p.consumed < sliceSize
    · rw [slice_take_of_lt hp, h.slice, h.consumed, Md5.update_append]
      rfl
    · have hnone : sliceSize - seen.size = 0 := by
        have := h.consumed
        omega
      rw [slice_take_of_le (Nat.not_lt.mp hp), h.slice, hnone, Nat.zero_min,
        ByteArray.extract_same, ByteArray.append_empty]
      rfl
  consumed := by
    rw [ByteArray.size_append, ← h.consumed]
    rfl

end Progress.Of

end Digest

/-- A part that has bytes has them within so many, and no reader refuses where it starts. -/
structure Chunk.Inside (c : Chunk) (size : Nat) : Prop where
  stop : 0 < c.size → c.offset + c.size ≤ size
  offset : c.offset < Digest.offsetBound

namespace Digest

variable {content seen : ByteArray} {p : Progress}

/-- A range inside a file is read as if it were one window. -/
theorem readRange_inside (writable : Bool) {c : Chunk} (h : c.Inside content.size)
    (hp : p.Of seen) :
    ∃ q, readRange (.file content writable) c.offset c.size { p with block := {} } = .ok q ∧
      q.block.text = md5 (c.bytes content) ∧ q.Of (seen ++ c.bytes content) := by
  rcases Nat.eq_zero_or_pos c.size with hzero | hpos
  · have hnone : c.bytes content = .empty := by
      rw [Chunk.bytes, hzero, Nat.add_zero, ByteArray.extract_same]
    refine ⟨{ p with block := {} }, ?_, ?_, ?_⟩
    · rw [readRange, if_pos hzero]
    · rw [hnone]
      exact text_start
    · rw [hnone, ByteArray.append_empty]
      exact hp.fresh
  · obtain ⟨q, hq⟩ : ∃ q, readRange (.file content writable) c.offset c.size
        { p with block := {} } = .ok q := readRange_of_le (h.stop hpos) _
    refine ⟨q, hq, ?_⟩
    rcases readRange_ok hq with ⟨hzero, -⟩ | ⟨_, _, hnode, -, rfl⟩
    · omega
    · injection hnode with hcontent _
      subst hcontent
      exact ⟨rfl, hp.fresh.take _⟩

/-- Ranges inside a file are read as if their bytes were joined. -/
theorem readRanges_inside (writable : Bool) {chunks : List Chunk}
    (h : ∀ c ∈ chunks, c.Inside content.size) (hp : p.Of seen) :
    ∃ q, readRanges (.file content writable) chunks p
        = .ok (q, chunks.map fun c => md5 (c.bytes content)) ∧
      q.Of (seen ++ joined content chunks) := by
  induction chunks generalizing p seen with
  | nil =>
    refine ⟨p, rfl, ?_⟩
    rw [joined, List.map_nil, List.foldr_nil, ByteArray.append_empty]
    exact hp
  | cons c rest ih =>
    have hc : c.Inside content.size := h c List.mem_cons_self
    obtain ⟨q, hq, htext, hof⟩ := readRange_inside writable hc hp
    obtain ⟨last, hrest, hlast⟩ := ih (fun d hd => h d (List.mem_cons_of_mem c hd)) hof
    refine ⟨last, ?_, ?_⟩
    · rw [readRanges, if_neg (Nat.not_le.mpr hc.offset), hq]
      dsimp only
      rw [hrest]
      dsimp only
      rw [htext, List.map_cons]
    · rw [joined_cons, ← ByteArray.append_assoc]
      exact hlast

/-- Ranges that were read, wherever they lie, were read as if their bytes were joined. -/
theorem of_readRanges {node : Node} {chunks : List Chunk} {q : Progress} {texts : List String}
    (h : readRanges node chunks p = .ok (q, texts)) (hp : p.Of seen) :
    q.Of (seen ++ joined node.content chunks) := by
  induction chunks generalizing p seen texts with
  | nil =>
    cases h
    rw [joined, List.map_nil, List.foldr_nil, ByteArray.append_empty]
    exact hp
  | cons c rest ih =>
    rw [readRanges] at h
    split at h
    · cases h
    · split at h
      · cases h
      · next after hrange =>
        split at h
        · cases h
        · next last more hrest =>
          cases h
          have hafter : after.Of (seen ++ c.bytes node.content) := by
            rcases readRange_ok hrange with ⟨hzero, rfl⟩ | ⟨content, _, rfl, -, rfl⟩
            · have hnone : c.bytes node.content = .empty := by
                rw [Chunk.bytes, hzero, Nat.add_zero, ByteArray.extract_same]
              rw [hnone, ByteArray.append_empty]
              exact hp.fresh
            · exact hp.fresh.take _
          rw [joined_cons, ← ByteArray.append_assoc]
          exact ih hrest hafter

/-! ## Ranges past the end -/

/-- A range that goes past the end is read up to a window that does. -/
theorem readRange_past (writable : Bool) {offset size : Nat} (hpos : 0 < size)
    (h : content.size < offset + size) (p : Progress) :
    readRange (.file content writable) offset size p = .error .unexpectedEof := by
  induction size using Nat.strongRecOn generalizing offset p with
  | ind size ih =>
    have hwindow : 0 < windowSize := by decide
    rw [readRange, if_neg (by omega)]
    dsimp only
    split
    · rfl
    · exact ih (size - min size windowSize) (by omega) (by omega) (by omega) _

/-- A file gives a range, or it ends too early. -/
theorem readRange_ok_or_past (content : ByteArray) (writable : Bool) (offset size : Nat)
    (p : Progress) :
    (∃ q, readRange (.file content writable) offset size p = .ok q) ∨
      readRange (.file content writable) offset size p = .error .unexpectedEof := by
  rcases Nat.lt_or_ge content.size (offset + size) with hpast | hin
  · rcases Nat.eq_zero_or_pos size with hzero | hpos
    · exact .inl ⟨p, by rw [readRange, if_pos hzero]⟩
    · exact .inr (readRange_past writable hpos hpast p)
  · exact .inl (readRange_of_le hin p)

/-- The first range that goes past the end ends the reading, if nothing was refused before. -/
theorem readRanges_past (writable : Bool) {before after : List Chunk} {c : Chunk}
    (hbefore : ∀ d ∈ before, d.offset < offsetBound) (hoffset : c.offset < offsetBound)
    (hpos : 0 < c.size) (hpast : content.size < c.offset + c.size) (p : Progress) :
    readRanges (.file content writable) (before ++ c :: after) p = .error .unexpectedEof := by
  induction before generalizing p with
  | nil =>
    rw [List.nil_append, readRanges, if_neg (Nat.not_le.mpr hoffset),
      readRange_past writable hpos hpast]
  | cons d rest ih =>
    have hd : d.offset < offsetBound := hbefore d List.mem_cons_self
    have hrest := ih fun e he => hbefore e (List.mem_cons_of_mem d he)
    rw [List.cons_append, readRanges, if_neg (Nat.not_le.mpr hd)]
    obtain ⟨q, hq⟩ | hq := readRange_ok_or_past content writable d.offset d.size
      { p with block := {} }
    · rw [hq]
      dsimp only
      rw [hrest]
    · rw [hq]

/-! ## Files -/

variable {files : Files} {path : String} {writable : Bool}

theorem map_md5 (content : ByteArray) (chunks : List Chunk) :
    (chunks.map fun c => md5 (c.bytes content))
      = chunks.map fun c => messageDigest (c.bytes content) :=
  List.map_congr_left fun _ _ => md5_eq_messageDigest _

/-- The digests of parts inside a file are those of their bytes as a whole. -/
theorem ofFile_inside {plan : Plan} (hfind : files.find path = .ok (.file content writable))
    (h : ∀ c ∈ plan.chunks, c.Inside content.size) :
    ofFile files path plan = .ok (.atOnce content plan.chunks) := by
  obtain ⟨q, hread, hof⟩ := readRanges_inside writable h Progress.Of.start
  rw [ByteArray.empty_append] at hof
  have hcontent : q.content.text = messageDigest (joined content plan.chunks) := by
    rw [hof.content, ← md5_eq_messageDigest]
    rfl
  have hslice : q.slice.text = messageDigest (beginning (joined content plan.chunks)) := by
    rw [hof.slice, ← md5_eq_messageDigest]
    rfl
  rw [ofFile, hfind]
  dsimp only
  rw [hread]
  dsimp only
  rw [hcontent, hslice, map_md5, FileDigests.atOnce]

/-- The digest of a file that a plan cuts as a whole. -/
theorem contentMd5_ofFile (s : Sizing) {d : FileDigests}
    (hfind : files.find path = .ok (.file content writable))
    (h : ofFile files path (s.plan content.size) = .ok d) : d.contentMd5 = md5 content := by
  rw [ofFile, hfind] at h
  dsimp only at h
  split at h
  · cases h
  · next q texts hread =>
    cases h
    have hof := (of_readRanges hread Progress.Of.start).content
    have hwhole : joined content (s.plan content.size).chunks = content := by
      rw [joined, (s.tiles_plan content.size).joined (Nat.le_refl _)]
      exact ByteArray.extract_zero_size
    rw [ByteArray.empty_append] at hof
    show q.content.text = _
    rw [hof]
    exact congrArg md5 hwhole

theorem ofFile_past {plan : Plan} (hfind : files.find path = .ok (.file content writable))
    {before after : List Chunk} {c : Chunk} (hplan : plan.chunks = before ++ c :: after)
    (hbefore : ∀ d ∈ before, d.offset < offsetBound) (hoffset : c.offset < offsetBound)
    (hpos : 0 < c.size) (hpast : content.size < c.offset + c.size) :
    ofFile files path plan = .error .unexpectedEof := by
  rw [ofFile, hfind, hplan]
  dsimp only
  rw [readRanges_past writable hbefore hoffset hpos hpast]

/-- The beginning of the first bytes of a file is its beginning, up to their end. -/
theorem beginning_extract {total : Nat} (h : total ≤ content.size) :
    beginning (content.extract 0 total) = content.extract 0 (min sliceSize total) := by
  have hsize : (content.extract 0 total).size = total := by
    rw [ByteArray.size_extract]
    omega
  have hstop : min (min sliceSize total) total = min sliceSize total := by omega
  rw [beginning, hsize, ByteArray.extract_extract, Nat.zero_add, Nat.zero_add, hstop]

/-- What is told of a file's content, however a plan cuts it. -/
structure Whole (files : Files) (path : String) (content : ByteArray) : Prop where
  /-- Parts inside the file give the digests of their bytes as a whole. -/
  inside : ∀ {plan : Plan}, (∀ c ∈ plan.chunks, c.Inside content.size) →
    ofFile files path plan = .ok (.atOnce content plan.chunks)
  /-- A plan made here gives the digests of the first bytes, for every size of a part. -/
  planned : ∀ (s : Sizing) {total : Nat}, content.size < offsetBound → total ≤ content.size →
    ofFile files path (s.plan total) = .ok {
      contentMd5 := messageDigest (content.extract 0 total)
      sliceMd5 := messageDigest (content.extract 0 (min sliceSize total))
      blockList := (s.plan total).chunks.map fun c => messageDigest (c.bytes content) }
  /-- A part that goes past the end leaves no digests, if no reader refuses where it starts. -/
  past : ∀ {plan : Plan} {before after : List Chunk} {c : Chunk},
    plan.chunks = before ++ c :: after → (∀ d ∈ before, d.offset < offsetBound) →
    c.offset < offsetBound → 0 < c.size → content.size < c.offset + c.size →
    ofFile files path plan = .error .unexpectedEof
  /-- A plan made for more bytes than there are leaves no digests. -/
  short : ∀ (s : Sizing) {total : Nat}, content.size < offsetBound → content.size < total →
    ofFile files path (s.plan total) = .error .unexpectedEof

/-- A file read range by range and window by window gives the digests of its bytes as a whole, or
none if a range goes past its end. -/
theorem ofFile_whole (hfind : files.find path = .ok (.file content writable)) :
    Whole files path content where
  inside h := ofFile_inside hfind h
  planned s total hbound htotal := by
    have htiles : Tiles 0 total (s.plan total).chunks := s.tiles_plan total
    have hinside : ∀ c ∈ (s.plan total).chunks, c.Inside content.size := by
      intro c hc
      obtain ⟨-, hstop⟩ := htiles.within c hc
      exact ⟨fun _ => by omega, by omega⟩
    have hjoined : joined content (s.plan total).chunks = content.extract 0 total :=
      htiles.joined htotal
    rw [ofFile_inside hfind hinside, FileDigests.atOnce, hjoined, beginning_extract htotal]
  past hplan hbefore hoffset hpos hpast := ofFile_past hfind hplan hbefore hoffset hpos hpast
  short s total hbound htotal := by
    obtain ⟨before, c, after, hplan, hbefore, hoffset, hpast⟩ :=
      (s.tiles_plan total).past (Nat.zero_le content.size) htotal
    exact ofFile_past hfind hplan (fun d hd => Nat.lt_of_le_of_lt (hbefore d hd) hbound)
      (by omega) (by omega) hpast

namespace Sample

/-- A file of three bytes. -/
def threeBytes : ByteArray := ⟨#[1, 2, 3]⟩

def threeFiles : Files where
  nodes := [(["home"], .folder true), (["home", "f"], .file threeBytes true)]

/-- Parts of two bytes. -/
def pairs : Sizing where
  hint := 2

end Sample

theorem ofFile_whole_three :
    Sample.threeFiles.find "f" = .ok (.file Sample.threeBytes true) ∧
      ofFile Sample.threeFiles "f" (Sample.pairs.plan 3) = .ok {
        contentMd5 := "5289df737df57326fcdd22597afb1fac"
        sliceMd5 := "5289df737df57326fcdd22597afb1fac"
        blockList := ["0cb988d042a7f28dd5fe2b55b3f5ac7a", "8666683506aacd900bbd5a74ac4edf68"] } ∧
      ofFile Sample.threeFiles "f" (Sample.pairs.plan 4) = .error .unexpectedEof := by
  have hfind : Sample.threeFiles.find "f" = .ok (.file Sample.threeBytes true) := rfl
  have hwhole : Whole Sample.threeFiles "f" Sample.threeBytes := ofFile_whole hfind
  refine ⟨hfind, ?_, hwhole.short Sample.pairs (by decide) (by decide)⟩
  rw [hwhole.planned Sample.pairs (by decide) (by decide)]
  decide +kernel

end Digest

end ResumableUpload
