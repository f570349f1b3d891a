import ResumableUpload.Json.Record
import ResumableUpload.Plan.Basic

/-!
# Plans as JSON

A plan and its parts are records, all of whose fields are required.
-/

namespace ResumableUpload

def Chunk.fieldNames : List String := ["index", "offset", "size", "uploaded"]

def Chunk.toJson (c : Chunk) : Json :=
  .record [("index", .nat c.index), ("offset", .nat c.offset), ("size", .nat c.size),
    ("uploaded", .bool c.uploaded)]

def Chunk.ofJson? (v : Json) : Option Chunk := do
  let r ← Json.fields? fieldNames v
  pure {
    index := ← r.required "index" (Json.natOfBits? 64)
    offset := ← r.required "offset" (Json.natOfBits? 64)
    size := ← r.required "size" (Json.natOfBits? 64)
    uploaded := ← r.required "uploaded" Json.bool? }

def Plan.fieldNames : List String := ["total_size", "part_size", "chunks"]

def Plan.toJson (p : Plan) : Json :=
  .record [("total_size", .nat p.totalSize), ("part_size", .nat p.partSize),
    ("chunks", .array (p.chunks.map Chunk.toJson))]

def Plan.ofJson? (v : Json) : Option Plan := do
  let r ← Json.fields? fieldNames v
  pure {
    totalSize := ← r.required "total_size" (Json.natOfBits? 64)
    partSize := ← r.required "part_size" (Json.natOfBits? 64)
    chunks := ← r.required "chunks" (Json.list? Chunk.ofJson?) }

end ResumableUpload
