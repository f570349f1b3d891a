import ResumableUpload.Text.Hex

/-!
# Percent encoding

Characters that an address or a form cannot hold are written as the bytes of their UTF-8 form, each
a percent sign and two upper-case digits. What is kept differs from place to place: a path, a query
and a fragment each have characters of their own that are escaped, and a form keeps nothing but
letters, digits and four signs, with a plus sign for a space.
-/

namespace ResumableUpload.Text.Percent

def escape (b : UInt8) : List Char :=
  ['%', Hex.upperDigit (b.toNat / 16), Hex.upperDigit (b.toNat % 16)]

def escapeChar (c : Char) : List Char := (String.utf8EncodeChar c).flatMap escape

def encode (escapes : Char → Bool) (cs : List Char) : List Char :=
  cs.flatMap fun c => if escapes c then escapeChar c else [c]

/-! ### Addresses -/

def isUnprintable (c : Char) : Bool := c.toNat < 0x20 || 0x7F ≤ c.toNat

def inFragment (c : Char) : Bool := isUnprintable c || [' ', '"', '<', '>', '\x60'].contains c

def inPath (c : Char) : Bool := inFragment c || ['#', '?', '\x7b', '\x7d'].contains c

def inQuery (c : Char) : Bool := isUnprintable c || [' ', '"', '#', '<', '>', '\x27'].contains c

/-! ### Forms -/

def isPlain (c : Char) : Bool := c.isAlphanum || ['*', '-', '.', '_'].contains c

def formText (s : String) : String :=
  String.ofList (s.toList.flatMap fun c =>
    if c = ' ' then ['+'] else if isPlain c then [c] else escapeChar c)

/-- A form: names with their values. -/
def form (pairs : List (String × String)) : String :=
  "&".intercalate (pairs.map fun (name, value) => formText name ++ "=" ++ formText value)

end ResumableUpload.Text.Percent
