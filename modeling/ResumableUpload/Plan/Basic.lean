/-!
# Plans

A plan cuts a file into numbered parts that follow one another without gaps, all of one size but
for the last. An empty file has one empty part. The plan also keeps which parts are on the server
already.

A part is marked by its position in the plan; the parts still wanted are told by their numbers. In
a plan made here the two agree (`index_chunks_cut`).
-/

namespace ResumableUpload

/-- A part of a file. -/
structure Chunk where
  -- the number of the part, from zero
  index : Nat
  offset : Nat
  size : Nat
  -- the part is on the server
  uploaded : Bool := false
  deriving DecidableEq

/-- A file cut into parts. -/
structure Plan where
  totalSize : Nat
  partSize : Nat
  chunks : List Chunk
  deriving DecidableEq

/-- The least number of pieces of size `piece` that hold `total`. -/
def piecesOf (total piece : Nat) : Nat := (total + piece - 1) / piece

namespace Plan

/-- The part with a given number when the file is cut evenly. -/
def cutAt (totalSize partSize index : Nat) : Chunk :=
  let offset := index * partSize
  ⟨index, offset, min partSize (totalSize - offset), false⟩

/-- A file cut into parts of the given size. -/
def cut (totalSize partSize : Nat) : Plan :=
  if totalSize = 0 then ⟨0, partSize, [⟨0, 0, 0, false⟩]⟩
  else
    let count := piecesOf totalSize partSize
    ⟨totalSize, partSize, (List.range count).map (cutAt totalSize partSize)⟩

theorem index_chunks_cut (totalSize partSize : Nat) :
    (cut totalSize partSize).chunks.map Chunk.index
      = List.range (cut totalSize partSize).chunks.length := by
  unfold cut
  split
  · rfl
  · simp only [List.map_map, List.length_map, List.length_range]
    exact List.map_id'' (fun _ => rfl) _

def count (p : Plan) : Nat := p.chunks.length

def pending (p : Plan) : List Chunk := p.chunks.filter fun c => !c.uploaded

def uploaded (p : Plan) : List Chunk := p.chunks.filter fun c => c.uploaded

/-- The bytes in the parts on the server, counted in words of 64 bits. -/
def uploadedBytes (p : Plan) : Nat := p.uploaded.foldl (fun n c => n + c.size) 0 % UInt64.size

def isComplete (p : Plan) : Bool := p.chunks.all fun c => c.uploaded

/-- Marks the part at a position, if there is one, as on the server. -/
def mark (p : Plan) (position : Nat) : Plan :=
  { p with chunks := p.chunks.modify position fun c => { c with uploaded := true } }

/-- Marks the part at a position as on the server, and tells whether there is one. -/
def tryMark (p : Plan) (position : Nat) : Bool × Plan :=
  match p.chunks[position]? with
  | some c => (true, { p with chunks := p.chunks.set position { c with uploaded := true } })
  | none => (false, p)

/-- The numbers of the parts still wanted are known: all other parts are on the server. -/
def retain (p : Plan) (needed : List Nat) : Plan :=
  { p with chunks := p.chunks.map fun c => { c with uploaded := !needed.contains c.index } }

@[simp] theorem count_mark (p : Plan) (i : Nat) : (p.mark i).count = p.count := by
  simp [mark, count]

@[simp] theorem count_retain (p : Plan) (needed : List Nat) :
    (p.retain needed).count = p.count := by
  simp [retain, count]

end Plan

end ResumableUpload
