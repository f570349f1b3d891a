import ResumableUpload.Text.Hex

/-!
# Words of TOML

The lexical part of TOML: blanks, comments, line ends, keys, and the four kinds of strings. Each
reader takes what it knows off the front of a text and hands back the rest.

A line ends with a line feed or with a carriage return and a line feed; a carriage return alone ends
nothing and may stand nowhere. In strings of several lines either line end reads as a line feed.
-/

namespace ResumableUpload.Toml

/-! ### Between words -/

def isBlank (c : Char) : Bool := c == ' ' || c == '\t'

def skipBlanks (cs : List Char) : List Char := cs.dropWhile isBlank

def isPrintable (c : Char) : Bool := c == '\t' || (0x20 ≤ c.toNat && c.toNat != 0x7f)

def newline? : List Char → Option (List Char)
  | '\n' :: rest => some rest
  | '\r' :: '\n' :: rest => some rest
  | _ => none

/-- The text after the comment at its front, if there is one. -/
def skipComment : List Char → List Char
  | '#' :: rest => rest.dropWhile isPrintable
  | cs => cs

/-- The text after the end of a line: blanks, a comment, and a line end or the end of the text. -/
def lineEnd? (cs : List Char) : Option (List Char) :=
  match skipComment (skipBlanks cs) with
  | [] => some []
  | rest => newline? rest

/-- Where one is between the items of an array. -/
inductive Gap
  | line
  | comment

/-- The text after blanks, line ends and comments; a comment must end with its line. -/
def skipGap : Gap → List Char → Option (List Char)
  | .line, '#' :: rest => skipGap .comment rest
  | .comment, [] => none
  | _, '\n' :: rest => skipGap .line rest
  | _, '\r' :: '\n' :: rest => skipGap .line rest
  | .line, c :: rest => if isBlank c then skipGap .line rest else some (c :: rest)
  | .comment, c :: rest => if isPrintable c then skipGap .comment rest else none
  | .line, [] => some []

/-! ### Strings -/

/-- The character with the given code point, unless that is a surrogate or out of range. -/
def scalar? (digits : List Char) : Option Char :=
  match Text.Hex.number? digits with
  | some n => if n.isValidChar then some (Char.ofNat n) else none
  | none => none

def shortEscape? : Char → Option Char
  | 'b' => some '\x08'
  | 't' => some '\t'
  | 'n' => some '\n'
  | 'f' => some '\x0c'
  | 'r' => some '\r'
  | '"' => some '"'
  | '\\' => some '\\'
  | _ => none

/-- A string of one line after its opening quotation mark, `done` being read already, the last
character first. -/
def basic (done : List Char) : List Char → Option (String × List Char)
  | [] => none
  | '"' :: rest => some (String.ofList done.reverse, rest)
  | '\\' :: 'u' :: a :: b :: c :: d :: rest =>
    match scalar? [a, b, c, d] with
    | some x => basic (x :: done) rest
    | none => none
  | '\\' :: 'U' :: a :: b :: c :: d :: e :: f :: g :: h :: rest =>
    match scalar? [a, b, c, d, e, f, g, h] with
    | some x => basic (x :: done) rest
    | none => none
  | '\\' :: c :: rest =>
    match shortEscape? c with
    | some x => basic (x :: done) rest
    | none => none
  | c :: rest => if isPrintable c then basic (c :: done) rest else none

def literal (done : List Char) : List Char → Option (String × List Char)
  | [] => none
  | '\'' :: rest => some (String.ofList done.reverse, rest)
  | c :: rest => if isPrintable c then literal (c :: done) rest else none

/-- Where one is in a string of several lines. -/
inductive Margin
  -- in the text
  | text
  /-- After a backslash and some blanks; the line must end. -/
  | lineEnd
  /-- After a line end that counts for nothing; blanks and line ends are passed over. -/
  | indent

/-- A string of several lines after its opening marks. Up to two quotation marks may stand before
the closing ones. -/
def multiline (done : List Char) : Margin → List Char → Option (String × List Char)
  | _, [] => none
  | .lineEnd, '\n' :: rest => multiline done .indent rest
  | .lineEnd, '\r' :: '\n' :: rest => multiline done .indent rest
  | .lineEnd, c :: rest => if isBlank c then multiline done .lineEnd rest else none
  | .indent, ' ' :: rest => multiline done .indent rest
  | .indent, '\t' :: rest => multiline done .indent rest
  | .indent, '\n' :: rest => multiline done .indent rest
  | .indent, '\r' :: '\n' :: rest => multiline done .indent rest
  | _, '"' :: '"' :: '"' :: '"' :: '"' :: rest =>
    some (String.ofList ('"' :: '"' :: done).reverse, rest)
  | _, '"' :: '"' :: '"' :: '"' :: rest => some (String.ofList ('"' :: done).reverse, rest)
  | _, '"' :: '"' :: '"' :: rest => some (String.ofList done.reverse, rest)
  | _, '\n' :: rest => multiline ('\n' :: done) .text rest
  | _, '\r' :: '\n' :: rest => multiline ('\n' :: done) .text rest
  | _, '\\' :: 'u' :: a :: b :: c :: d :: rest =>
    match scalar? [a, b, c, d] with
    | some x => multiline (x :: done) .text rest
    | none => none
  | _, '\\' :: 'U' :: a :: b :: c :: d :: e :: f :: g :: h :: rest =>
    match scalar? [a, b, c, d, e, f, g, h] with
    | some x => multiline (x :: done) .text rest
    | none => none
  | _, '\\' :: '\n' :: rest => multiline done .indent rest
  | _, '\\' :: '\r' :: '\n' :: rest => multiline done .indent rest
  | _, '\\' :: c :: rest =>
    if isBlank c then multiline done .lineEnd rest
    else
      match shortEscape? c with
      | some x => multiline (x :: done) .text rest
      | none => none
  | _, c :: rest => if isPrintable c then multiline (c :: done) .text rest else none

/-- A literal string of several lines after its opening marks. -/
def literalLines (done : List Char) : List Char → Option (String × List Char)
  | [] => none
  | '\'' :: '\'' :: '\'' :: '\'' :: '\'' :: rest =>
    some (String.ofList ('\'' :: '\'' :: done).reverse, rest)
  | '\'' :: '\'' :: '\'' :: '\'' :: rest => some (String.ofList ('\'' :: done).reverse, rest)
  | '\'' :: '\'' :: '\'' :: rest => some (String.ofList done.reverse, rest)
  | '\n' :: rest => literalLines ('\n' :: done) rest
  | '\r' :: '\n' :: rest => literalLines ('\n' :: done) rest
  | c :: rest => if isPrintable c then literalLines (c :: done) rest else none

def skipNewline (cs : List Char) : List Char := (newline? cs).getD cs

def string? : List Char → Option (String × List Char)
  | '"' :: '"' :: '"' :: rest => multiline [] .text (skipNewline rest)
  | '"' :: rest => basic [] rest
  | '\'' :: '\'' :: '\'' :: rest => literalLines [] (skipNewline rest)
  | '\'' :: rest => literal [] rest
  | _ => none

/-! ### Keys -/

def isKeyChar (c : Char) : Bool :=
  ('A' ≤ c && c ≤ 'Z') || ('a' ≤ c && c ≤ 'z') || ('0' ≤ c && c ≤ '9') || c == '-' || c == '_'

def keyPart? : List Char → Option (String × List Char)
  | '"' :: rest => basic [] rest
  | '\'' :: rest => literal [] rest
  | cs =>
    match cs.takeWhile isKeyChar with
    | [] => none
    | word => some (String.ofList word, cs.dropWhile isKeyChar)

def maxKeyParts : Nat := 79

/-- The further parts of a key, each after a point, `left` of them at most; blanks may stand around
the points and after the key. -/
def keyRest? (done : List String) : Nat → List Char → Option (List String × List Char)
  | 0, cs =>
    match skipBlanks cs with
    | '.' :: _ => none
    | rest => some (done.reverse, rest)
  | left + 1, cs =>
    match skipBlanks cs with
    | '.' :: rest =>
      match keyPart? (skipBlanks rest) with
      | some (part, rest) => keyRest? (part :: done) left rest
      | none => none
    | rest => some (done.reverse, rest)

/-- A key: parts with points between them. -/
def key? (cs : List Char) : Option (List String × List Char) :=
  match keyPart? (skipBlanks cs) with
  | some (part, rest) => keyRest? [part] (maxKeyParts - 1) rest
  | none => none

end ResumableUpload.Toml
