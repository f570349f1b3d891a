/-!
# Records read from a data format

A record is read from the fields that a text gives it. Which fields were given is kept here; what a
missing field means is up to the record. The values below the fields belong to a data format, which
says how they give plain values (`Scalars`), so that one record can be read from several formats.
-/

namespace ResumableUpload

/-- The fields that a text gives a record, each name at most once. -/
structure Fields (V : Type) where
  given : List (String × V)

namespace Fields

/-- The value of a field, if it was given. -/
def find? (r : Fields V) (name : String) : Option V :=
  (r.given.find? (·.1 == name)).map (·.2)

/-- A field that must be given. -/
def required (r : Fields V) (name : String) (read? : V → Option α) : Option α :=
  (r.find? name).bind read?

def defaulted (r : Fields V) (name : String) (read? : V → Option α) (default : α) : Option α :=
  match r.find? name with
  | some v => read? v
  | none => some default

end Fields

/-- A plain value of a field. -/
inductive Scalar
  | text (s : String)
  | nat (n : Nat)
  | bool (b : Bool)

/-- How a data format gives plain values. -/
structure Scalars (V : Type) where
  bool? : V → Option Bool
  /-- A natural number of at most so many binary digits. -/
  natOfBits? : Nat → V → Option Nat
  text? : V → Option String
  /-- One of several names. -/
  name? : V → Option String
  /-- A text that may be absent. -/
  optionalText? : V → Option (Option String)

end ResumableUpload
