import ResumableUpload.Json.Value
import ResumableUpload.Text.Hex

/-!
# Writing JSON

Two forms: all on one line without blanks, and one item a line, two blanks deeper at each level.
An empty array or object has no line of its own. Strings escape the quotation mark, the backslash
and the controls below the blank, and leave everything else as it is.
-/

namespace ResumableUpload.Json

def escaped (c : Char) : List Char :=
  match c with
  | '"' => ['\\', '"']
  | '\\' => ['\\', '\\']
  | '\x08' => ['\\', 'b']
  | '\x0c' => ['\\', 'f']
  | '\n' => ['\\', 'n']
  | '\r' => ['\\', 'r']
  | '\t' => ['\\', 't']
  | c => if c.toNat < 0x20 then '\\' :: 'u' :: Text.Hex.four c.toNat else [c]

def quoted (s : String) : String :=
  String.ofList ('"' :: s.toList.foldr (fun c rest => escaped c ++ rest) ['"'])

/-- A key; one that is no text is written as the replacement character. -/
def quotedKey (key : Option String) : String := quoted (key.getD "\uFFFD")

mutual

def compact : Json → String
  | null => "null"
  | bool true => "true"
  | bool false => "false"
  | int n => toString n
  | number literal => literal
  | text s => quoted s
  | brokenText => quotedKey none
  | array items => "[" ++ compactItems items ++ "]"
  | object fields => "\x7b" ++ compactFields fields ++ "\x7d"

def compactItems : List Json → String
  | [] => ""
  | [v] => compact v
  | v :: rest => compact v ++ "," ++ compactItems rest

def compactFields : List (Option String × Json) → String
  | [] => ""
  | [(key, v)] => quotedKey key ++ ":" ++ compact v
  | (key, v) :: rest => quotedKey key ++ ":" ++ compact v ++ "," ++ compactFields rest

end

def lineAt (depth : Nat) : String := "\n" ++ String.ofList (List.replicate (2 * depth) ' ')

mutual

def prettyAt (depth : Nat) : Json → String
  | null => "null"
  | bool true => "true"
  | bool false => "false"
  | int n => toString n
  | number literal => literal
  | text s => quoted s
  | brokenText => quotedKey none
  | array [] => "[]"
  | array items => "[" ++ prettyItems (depth + 1) items ++ lineAt depth ++ "]"
  | object [] => "\x7b\x7d"
  | object fields => "\x7b" ++ prettyFields (depth + 1) fields ++ lineAt depth ++ "\x7d"

/-- Items, each on a line of its own. -/
def prettyItems (depth : Nat) : List Json → String
  | [] => ""
  | [v] => lineAt depth ++ prettyAt depth v
  | v :: rest => lineAt depth ++ prettyAt depth v ++ "," ++ prettyItems depth rest

/-- Fields, each on a line of its own. -/
def prettyFields (depth : Nat) : List (Option String × Json) → String
  | [] => ""
  | [(key, v)] => lineAt depth ++ quotedKey key ++ ": " ++ prettyAt depth v
  | (key, v) :: rest =>
    lineAt depth ++ quotedKey key ++ ": " ++ prettyAt depth v ++ "," ++ prettyFields depth rest

end

def pretty (v : Json) : String := prettyAt 0 v

end ResumableUpload.Json
