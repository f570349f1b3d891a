/-!
# JSON values

A value as its text gives it: the fields of an object keep their order, and equal keys are all
kept. Two things a text may hold have no value of their own here and are only passed over: a
number that is no plain integer, kept as it is written, and a string in which a surrogate stands
alone, which is no text.
-/

namespace ResumableUpload

/-- A JSON value. -/
inductive Json
  | null
  | bool (b : Bool)
  | int (n : Int)
  -- any other number, as written
  | number (literal : String)
  | text (s : String)
  -- a string with a surrogate that stands alone
  | brokenText
  | array (items : List Json)
  /-- Fields in written order; a key that is no text is left open. -/
  | object (fields : List (Option String × Json))

namespace Json

def nat (n : Nat) : Json := int n

def record (fields : List (String × Json)) : Json :=
  object (fields.map fun (key, value) => (some key, value))

def texts (items : List String) : Json := array (items.map text)

def nats (items : List Nat) : Json := array (items.map nat)

/-- The value if there is one. -/
def ofOption (write : α → Json) : Option α → Json
  | some a => write a
  | none => null

end Json

end ResumableUpload
