import ResumableUpload.Fields
import ResumableUpload.Json.Value

/-!
# Records in JSON

How structured data is taken out of a JSON value. A record with named fields is given as an object,
its fields in any order, or as an array of the fields in their declared order. Of an object, fields
that the record does not have are passed over, but each key must be a text and no field of the
record may be given twice. An array may stop early and may not go on too long. What is missing is
up to the record: a field has a default or is required.
-/

namespace ResumableUpload.Json

/-! ### Plain values -/

def bool? : Json → Option Bool
  | bool b => some b
  | _ => none

def text? : Json → Option String
  | text s => some s
  | _ => none

/-- An integer from `low` to `high`. -/
def intWithin? (low high : Int) : Json → Option Int
  | int n => if low ≤ n ∧ n ≤ high then some n else none
  | _ => none

/-- A natural number of at most `bits` binary digits. -/
def natOfBits? (bits : Nat) (v : Json) : Option Nat :=
  (intWithin? 0 ((1 <<< bits : Nat) - 1) v).map Int.toNat

/-- An integer that fits a signed word of `bits` binary digits. -/
def intOfBits? (bits : Nat) (v : Json) : Option Int :=
  intWithin? (-(1 <<< (bits - 1) : Nat)) ((1 <<< (bits - 1) : Nat) - 1) v

/-- A list, each item read in the same way. -/
def list? (item? : Json → Option α) : Json → Option (List α)
  | array items => items.mapM item?
  | _ => none

/-- A value that may be absent, written as `null`. -/
def option? (value? : Json → Option α) : Json → Option (Option α)
  | null => some none
  | v => (value? v).map some

/-- One of several names: the name itself, or an object with the name as its only key and `null`
below it. -/
def name? : Json → Option String
  | text s => some s
  | object [(some s, null)] => some s
  | _ => none

/-! ### Records -/

/-- Takes the next field of an object: unknown names are passed over, a known name may come once. -/
def takeField (names : List String) (r : Fields Json) (field : Option String × Json) :
    Option (Fields Json) :=
  match field with
  | (none, _) => none
  | (some key, v) =>
    if !names.contains key then some r
    else if (r.find? key).isSome then none
    else some ⟨r.given ++ [(key, v)]⟩

/-- The fields, out of `names` in their declared order, that a value gives. -/
def fields? (names : List String) : Json → Option (Fields Json)
  | object fields => fields.foldlM (takeField names) ⟨[]⟩
  | array items => if items.length ≤ names.length then some ⟨names.zip items⟩ else none
  | _ => none

/-- A map from texts: an object each of whose keys is a text. Of equal keys the last counts. -/
def map? (value? : Json → Option α) : Json → Option (List (String × α))
  | object fields => do
    let entries ← fields.mapM fun (key, v) => do
      let key ← key
      let v ← value? v
      pure (key, v)
    pure (entries.foldl (fun acc e => acc.filter (·.1 != e.1) ++ [e]) [])
  | _ => none

def ofScalar : Scalar → Json
  | .text s => text s
  | .nat n => nat n
  | .bool b => bool b

def scalars : Scalars Json where
  bool? := bool?
  natOfBits? := natOfBits?
  text? := text?
  name? := name?
  optionalText? := option? text?

end ResumableUpload.Json
