import ResumableUpload.Digest.Md5
import ResumableUpload.Files
import ResumableUpload.Plan.Basic

/-!
# Digests of a file

An announcement carries the digest of each part of a file, of the parts together, and of the first
256 KiB of them. The file is read once, range by range and a window at a time; all digests are made
on the way.
-/

namespace ResumableUpload.Digest

/-- The digests that announce a file. -/
structure FileDigests where
  contentMd5 : String
  sliceMd5 : String
  blockList : List String
  deriving DecidableEq

def sliceSize : Nat := 256 * 1024

def windowSize : Nat := 64 * 1024

/-- No file reaches this offset. -/
def offsetBound : Nat := 1 <<< 63

/-- The digests under way. -/
structure Progress where
  block : Md5 := {}
  content : Md5 := {}
  slice : Md5 := {}
  consumed : Nat := 0

def Progress.take (p : Progress) (window : ByteArray) : Progress where
  block := p.block.update window
  content := p.content.update window
  slice :=
    if p.consumed < sliceSize then
      p.slice.update (window.extract 0 (min (sliceSize - p.consumed) window.size))
    else p.slice
  consumed := p.consumed + window.size

/-- Reads a range of `size` bytes window by window. -/
def readRange (node : Node) (offset size : Nat) (p : Progress) : Except IoFault Progress :=
  if size = 0 then .ok p
  else
    match node with
    | .folder _ => .error .isADirectory
    | .file content _ =>
      let want := min size windowSize
      if content.size < offset + want then .error .unexpectedEof
      else
        readRange node (offset + want) (size - want)
          (p.take (content.extract offset (offset + want)))
termination_by size
decreasing_by
  have : 0 < windowSize := by decide
  omega

/-- Reads ranges one after the other, and hands back the digest of each with the rest. -/
def readRanges (node : Node) : List Chunk → Progress → Except IoFault (Progress × List String)
  | [], p => .ok (p, [])
  | c :: rest, p =>
    if offsetBound ≤ c.offset then .error .invalidArgument
    else
      match readRange node c.offset c.size { p with block := {} } with
      | .error fault => .error fault
      | .ok p =>
        match readRanges node rest p with
        | .error fault => .error fault
        | .ok (last, blocks) => .ok (last, p.block.text :: blocks)

/-- The digests of a file cut by a plan. -/
def ofFile (files : Files) (path : String) (plan : Plan) : Except IoFault FileDigests :=
  match files.find path with
  | .error fault => .error fault
  | .ok node =>
    match readRanges node plan.chunks {} with
    | .error fault => .error fault
    | .ok (p, blocks) => .ok ⟨p.content.text, p.slice.text, blocks⟩

/-- The bytes of one part of a file. A part too large for any memory stops its reader. -/
def readChunk (files : Files) (path : String) (offset size : Nat) : Except IoFault ByteArray :=
  match files.find path with
  | .error fault => .error fault
  | .ok node =>
    if offsetBound ≤ offset then .error .invalidArgument
    else if offsetBound ≤ size then
      .error (.task "task # panicked with message \"capacity overflow\"")
    else
      match node with
      | .folder _ => if size = 0 then .ok .empty else .error .isADirectory
      | .file content _ =>
        if content.size < offset + size ∧ 0 < size then .error .unexpectedEof
        else .ok (content.extract offset (offset + size))

end ResumableUpload.Digest
