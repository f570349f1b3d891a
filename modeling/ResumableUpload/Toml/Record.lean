import ResumableUpload.Fields
import ResumableUpload.Toml.Value

/-!
# Records in TOML

How structured data is taken out of a TOML value. A record is given as a table, of which other keys
are passed over, or as an array of its fields in their declared order, of which the rest is passed
over. A date in its place gives no field at all.
-/

namespace ResumableUpload.Toml

def bool? : Toml → Option Bool
  | bool b => some b
  | _ => none

def text? : Toml → Option String
  | text s => some s
  | _ => none

/-- A natural number of at most `bits` binary digits. -/
def natOfBits? (bits : Nat) : Toml → Option Nat
  | int n => if 0 ≤ n ∧ n.toNat < 1 <<< bits then some n.toNat else none
  | _ => none

def isEmpty : Toml → Bool
  | array [] | table [] => true
  | _ => false

/-- One of several names: the name itself, or a table with the name as its only key and nothing
below it. -/
def name? : Toml → Option String
  | text s => some s
  | table [(s, v)] => if v.isEmpty then some s else none
  | _ => none

/-- The fields, out of `names` in their declared order, that a value gives. -/
def fields? (names : List String) : Toml → Option (Fields Toml)
  | table entries => some ⟨entries.filter fun e => names.contains e.1⟩
  | array items => some ⟨names.zip items⟩
  | moment => some ⟨[]⟩
  | _ => none

def scalars : Scalars Toml where
  bool? := bool?
  natOfBits? := natOfBits?
  text? := text?
  name? := name?
  optionalText? := fun v => (text? v).map some

end ResumableUpload.Toml
