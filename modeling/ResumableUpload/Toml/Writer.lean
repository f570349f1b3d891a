import ResumableUpload.Fields
import ResumableUpload.Text.Hex

/-!
# Writing TOML

Strings are written in the first form that fits: between double quotes, between single quotes, over
several lines between three double quotes, or between three single quotes; what fits none of them is
written between double quotes with escapes, over several lines if it has any line end.
-/

namespace ResumableUpload.Toml

/-! ### The form of a string -/

def isControl (c : Char) : Bool := c.toNat < 0x20 || c.toNat == 0x7f

/-- The longest row of a character in a text; `row` counts the row that ends before the text. -/
def longestRow (c : Char) (row : Nat) : List Char → Nat
  | [] => row
  | d :: rest => if d == c then longestRow c (row + 1) rest else max row (longestRow c 0 rest)

/-- The forms of a written string. -/
inductive StringForm
  -- between double quotes, with escapes
  | basic
  -- between single quotes
  | literal
  /-- Over several lines between three double quotes, with escapes. -/
  | basicLines
  /-- Over several lines between three single quotes. -/
  | literalLines
  deriving DecidableEq

namespace StringForm

/-- The text has no control but the tab. -/
def isPlain (cs : List Char) : Bool := cs.all fun c => c == '\t' || !isControl c

/-- The text has no control but the tab and the line feed. -/
def isPlainLines (cs : List Char) : Bool := cs.all fun c => c == '\t' || c == '\n' || !isControl c

def of (cs : List Char) : StringForm :=
  if isPlain cs && !cs.contains '\\' && !cs.contains '"' then basic
  else if isPlain cs && !cs.contains '\'' then literal
  else if isPlainLines cs && !cs.contains '\\' && longestRow '"' 0 cs ≤ 2 then basicLines
  else if isPlainLines cs && longestRow '\'' 0 cs ≤ 2 then literalLines
  else if cs.contains '\n' then basicLines
  else basic

end StringForm

/-! ### Strings -/

/-- A character that has to be escaped in either form with double quotes, quotation marks and line
feeds apart. -/
def escaped (c : Char) : List Char :=
  match c with
  | '\x08' => ['\\', 'b']
  | '\t' => ['\\', 't']
  | '\x0c' => ['\\', 'f']
  | '\r' => ['\\', 'r']
  | '\\' => ['\\', '\\']
  | c => if isControl c then '\\' :: 'u' :: Text.Hex.upperFour c.toNat else [c]

def escapedLine : List Char → List Char
  | [] => []
  | '"' :: rest => '\\' :: '"' :: escapedLine rest
  | '\n' :: rest => '\\' :: 'n' :: escapedLine rest
  | c :: rest => escaped c ++ escapedLine rest

/-- The inside of a string of several lines; `row` quotation marks stand before the text. The third
of a row is escaped. -/
def escapedLines (row : Nat) : List Char → List Char
  | [] => []
  | '"' :: rest =>
    if row = 2 then '\\' :: '"' :: escapedLines 0 rest else '"' :: escapedLines (row + 1) rest
  | '\n' :: rest => '\n' :: escapedLines 0 rest
  | c :: rest => escaped c ++ escapedLines 0 rest

/-- The line feed after the opening marks of a string of several lines, if it has more than one. -/
def firstBreak (cs : List Char) : List Char := if cs.contains '\n' then ['\n'] else []

def writtenAs (form : StringForm) (cs : List Char) : List Char :=
  match form with
  | .basic => '"' :: escapedLine cs ++ ['"']
  | .literal => '\'' :: cs ++ ['\'']
  | .basicLines => ['"', '"', '"'] ++ firstBreak cs ++ escapedLines 0 cs ++ ['"', '"', '"']
  | .literalLines => ['\'', '\'', '\''] ++ firstBreak cs ++ cs ++ ['\'', '\'', '\'']

def written (s : String) : String := String.ofList (writtenAs (.of s.toList) s.toList)

/-! ### Entries -/

/-- The value of an entry as written; a number must fit a signed word of 64 bits. -/
def writtenScalar? : Scalar → Option String
  | .text s => some (written s)
  | .nat n => if n < 1 <<< 63 then some (toString n) else none
  | .bool b => some (toString b)

/-- A table with a header and one line for each entry. Keys are written without quotation marks. -/
def writeTable? (name : String) (entries : List (String × Scalar)) : Option String := do
  let lines ← entries.mapM fun (key, value) => do
    pure (key ++ " = " ++ (← writtenScalar? value) ++ "\n")
  pure ("[" ++ name ++ "]\n" ++ String.join lines)

end ResumableUpload.Toml
