import ResumableUpload.Toml.Value

/-!
# Tables under construction

A TOML text builds its tables piece by piece: a header opens a table, a dotted key reaches into
tables below the open one. What may be added where hangs on how a table came about. A table made
only on the way to another is implicit, and its own header may still come, once. A table made by
dotted keys takes further dotted keys but no header. All other tables are closed to both.
-/

namespace ResumableUpload.Toml

mutual

/-- A table under construction. -/
inductive Draft
  | mk (implicit dotted : Bool) (entries : List (String × Item))

/-- What a key of a table under construction stands for. -/
inductive Item
  | value (v : Toml)
  -- an array of tables, the last of them open, the others in reverse order
  | tables (last : Draft) (earlier : List Draft)
  | table (t : Draft)

end

namespace Draft

def empty : Draft := mk false false []

def isImplicit : Draft → Bool
  | mk implicit _ _ => implicit

def isDotted : Draft → Bool
  | mk _ dotted _ => dotted

def entries : Draft → List (String × Item)
  | mk _ _ entries => entries

def find? (t : Draft) (key : String) : Option Item :=
  (t.entries.find? (·.1 == key)).map (·.2)

/-- Replaces what stands under a key, or adds the key. -/
def set (t : Draft) (key : String) (item : Item) : Draft :=
  if (t.find? key).isSome then
    mk t.isImplicit t.isDotted (t.entries.map fun e => if e.1 == key then (key, item) else e)
  else mk t.isImplicit t.isDotted (t.entries ++ [(key, item)])

/-- Changes the table at the end of a path. Missing tables on the way are made; a dotted key may not
pass through a table that has a header of its own. -/
def modifyAt (dotted : Bool) (change : Draft → Option Draft) : List String → Draft → Option Draft
  | [], t => change t
  | key :: path, t =>
    match t.find? key with
    | none => do
      let below ← modifyAt dotted change path (mk true dotted [])
      some (t.set key (.table below))
    | some (.value _) => none
    | some (.tables last earlier) => do
      let below ← modifyAt dotted change path last
      some (t.set key (.tables below earlier))
    | some (.table below) =>
      if dotted && !below.isImplicit then none
      else do
        let below ← modifyAt dotted change path below
        some (t.set key (.table below))

/-- Adds a value under the last part of a key. A dotted key must end in a table that dotted keys
made, and any other key in one that they did not make. -/
def put (path : List String) (key : String) (v : Toml) : Draft → Option Draft :=
  modifyAt true (fun t =>
    if t.isDotted == path.isEmpty then none
    else if (t.find? key).isSome then none
    else some (t.set key (.value v))) path

/-- The entries of a table, key by key: the path of each key, its last part, and the value. -/
abbrev Line := List String × String × Toml

def putAll (lines : List Line) (t : Draft) : Option Draft :=
  lines.foldlM (fun t (path, key, v) => t.put path key v) t

/-- What a header opens. -/
inductive Header
  | table (path : List String) (key : String)
  -- one more table of an array
  | item (path : List String) (key : String)

def openTable (header : Header) (lines : List Line) : Draft → Option Draft :=
  match header with
  | .table path key =>
    modifyAt false (fun t =>
      match t.find? key with
      | none => do
        let below ← empty.putAll lines
        some (t.set key (.table below))
      | some (.table (mk true false entries)) => do
        let below ← (mk false false entries).putAll lines
        some (t.set key (.table below))
      | some _ => none) path
  | .item path key =>
    modifyAt false (fun t =>
      match t.find? key with
      | none => do
        let below ← empty.putAll lines
        some (t.set key (.tables below []))
      | some (.tables last earlier) => do
        let below ← empty.putAll lines
        some (t.set key (.tables below (last :: earlier)))
      | some _ => none) path

end Draft

/-! ### Finished tables -/

mutual

def Draft.finish : Draft → Toml
  | .mk _ _ entries => .table (finishEntries entries)

def finishEntries : List (String × Item) → List (String × Toml)
  | [] => []
  | (key, item) :: rest => (key, item.finish) :: finishEntries rest

def Item.finish : Item → Toml
  | .value v => v
  | .tables last earlier => .array (finishTables earlier ++ [last.finish])
  | .table t => t.finish

def finishTables : List Draft → List Toml
  | [] => []
  | t :: earlier => finishTables earlier ++ [t.finish]

end

end ResumableUpload.Toml
