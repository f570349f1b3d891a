import ResumableUpload.Json.Value
import ResumableUpload.Text.Hex

/-!
# JSON tokens

The lexical part of JSON: blanks, marks, words, numbers and strings. A token is read off the front
of a text and what follows it is shorter (`Token.first?`).

A string is read as pieces first, characters and code units of two bytes, because a code unit may
be half of a character. The pieces are then joined: a high and a low surrogate in a row are one
character, and a surrogate that stands alone makes the string no text.
-/

namespace ResumableUpload.Json

/-- A token of JSON. -/
inductive Token
  | openArray
  | closeArray
  | openObject
  | closeObject
  | comma
  | colon
  | null
  | bool (b : Bool)
  | int (n : Int)
  | number (literal : String)
  -- a string, left open if it is no text
  | text (s : Option String)

def isBlank (c : Char) : Bool := c == ' ' || c == '\n' || c == '\t' || c == '\r'

/-! ### Strings -/

/-- A piece of a written string. -/
inductive Piece
  -- a character, written as it is or by a short escape
  | char (c : Char)
  -- a code unit written with four digits
  | unit (n : Nat)

def shortEscape? : Char → Option Char
  | '"' => some '"'
  | '\\' => some '\\'
  | '/' => some '/'
  | 'b' => some '\x08'
  | 'f' => some '\x0c'
  | 'n' => some '\n'
  | 'r' => some '\r'
  | 't' => some '\t'
  | _ => none

def pieces (done : List Piece) : List Char → Option (List Piece × List Char)
  | [] => none
  | '"' :: rest => some (done, rest)
  | '\\' :: 'u' :: a :: b :: c :: d :: rest =>
    match Text.Hex.number? [a, b, c, d] with
    | some n => pieces (.unit n :: done) rest
    | none => none
  | '\\' :: e :: rest =>
    match shortEscape? e with
    | some c => pieces (.char c :: done) rest
    | none => none
  | c :: rest => if c.toNat < 0x20 then none else pieces (.char c :: done) rest

def isHighSurrogate (n : Nat) : Bool := 0xd800 ≤ n && n < 0xdc00

def isLowSurrogate (n : Nat) : Bool := 0xdc00 ≤ n && n < 0xe000

def ofSurrogates (high low : Nat) : Char :=
  Char.ofNat (0x10000 + (high - 0xd800) * 0x400 + (low - 0xdc00))

/-- Puts pieces, the last one first, in front of the characters joined so far; nothing if a
surrogate stands alone. -/
def joined (after : List Char) : List Piece → Option (List Char)
  | [] => some after
  | .char c :: before => joined (c :: after) before
  | .unit low :: .unit high :: before =>
    if isLowSurrogate low then
      if isHighSurrogate high then joined (ofSurrogates high low :: after) before else none
    else if isHighSurrogate low then none
    else joined (Char.ofNat low :: after) (.unit high :: before)
  | .unit n :: before =>
    if isHighSurrogate n || isLowSurrogate n then none
    else joined (Char.ofNat n :: after) before

def string? (cs : List Char) : Option (Token × List Char) :=
  match pieces [] cs with
  | some (parts, rest) => some (.text ((joined [] parts).map String.ofList), rest)
  | none => none

/-! ### Numbers -/

def decimal (digits : List Char) : Nat :=
  digits.foldl (fun n d => 10 * n + (d.toNat - 48)) 0

def digits (cs : List Char) : List Char := cs.takeWhile Char.isDigit

def afterDigits (cs : List Char) : List Char := cs.dropWhile Char.isDigit

theorem length_afterDigits (cs : List Char) :
    (digits cs).length + (afterDigits cs).length = cs.length := by
  rw [digits, afterDigits, ← List.length_append, List.takeWhile_append_dropWhile]

/-- The fraction at the front of a text, with its point: some digits, or no fraction at all. -/
def fraction? : List Char → Option (List Char × List Char)
  | '.' :: rest =>
    if (digits rest).isEmpty then none else some ('.' :: digits rest, afterDigits rest)
  | cs => some ([], cs)

/-- The sign at the front of a text, if there is one. -/
def sign : List Char → List Char × List Char
  | '+' :: rest => (['+'], rest)
  | '-' :: rest => (['-'], rest)
  | cs => ([], cs)

/-- The exponent at the front of a text, with its letter: some digits, or no exponent at all. -/
def exponent? : List Char → Option (List Char × List Char)
  | [] => some ([], [])
  | e :: cs =>
    if e == 'e' || e == 'E' then
      let (s, rest) := sign cs
      if (digits rest).isEmpty then none
      else some (e :: s ++ digits rest, afterDigits rest)
    else some ([], e :: cs)

def numberToken (negative : Bool) (whole fraction exponent : List Char) : Token :=
  if fraction.isEmpty && exponent.isEmpty && !(negative && whole == ['0']) then
    .int (if negative then -(decimal whole : Int) else decimal whole)
  else
    .number (String.ofList ((if negative then ['-'] else []) ++ whole ++ fraction ++ exponent))

/-- A number without its sign. No digit follows a zero that starts it. -/
def unsigned? (negative : Bool) (cs : List Char) : Option (Token × List Char) :=
  match digits cs with
  | [] => none
  | '0' :: _ :: _ => none
  | whole =>
    match fraction? (afterDigits cs) with
    | none => none
    | some (fraction, rest) =>
      match exponent? rest with
      | none => none
      | some (exponent, rest) => some (numberToken negative whole fraction exponent, rest)

/-! ### Tokens -/

/-- The token at the front of a text that starts with no blank, and what follows it. -/
def first? : List Char → Option (Token × List Char)
  | '[' :: rest => some (.openArray, rest)
  | ']' :: rest => some (.closeArray, rest)
  | '\x7b' :: rest => some (.openObject, rest)
  | '\x7d' :: rest => some (.closeObject, rest)
  | ',' :: rest => some (.comma, rest)
  | ':' :: rest => some (.colon, rest)
  | '"' :: rest => string? rest
  | 'n' :: 'u' :: 'l' :: 'l' :: rest => some (.null, rest)
  | 't' :: 'r' :: 'u' :: 'e' :: rest => some (.bool true, rest)
  | 'f' :: 'a' :: 'l' :: 's' :: 'e' :: rest => some (.bool false, rest)
  | '-' :: rest => unsigned? true rest
  | cs => unsigned? false cs

/-! ### A token is never empty -/

theorem length_pieces {done : List Piece} {cs : List Char} {r : List Piece × List Char}
    (h : pieces done cs = some r) : r.2.length < cs.length := by
  fun_induction pieces done cs <;> grind

theorem length_fraction? {cs : List Char} {r : List Char × List Char}
    (h : fraction? cs = some r) : r.2.length ≤ cs.length := by
  unfold fraction? at h
  split at h
  · next rest =>
    have := length_afterDigits rest
    grind
  · grind

theorem length_sign (cs : List Char) : (sign cs).2.length ≤ cs.length := by
  unfold sign; split <;> simp

theorem length_exponent? {cs : List Char} {r : List Char × List Char}
    (h : exponent? cs = some r) : r.2.length ≤ cs.length := by
  unfold exponent? at h
  split at h
  · grind
  · next e rest =>
    have := length_sign rest
    have := length_afterDigits (sign rest).2
    grind

theorem length_unsigned? {negative : Bool} {cs : List Char} {r : Token × List Char}
    (h : unsigned? negative cs = some r) : r.2.length < cs.length := by
  have whole := length_afterDigits cs
  unfold unsigned? at h
  split at h
  · grind
  · grind
  · next digits some_digit _ =>
    have : 0 < (Json.digits cs).length := by grind [List.length_pos_iff]
    split at h
    · grind
    · next hf =>
      have := length_fraction? hf
      split at h
      · grind
      · next he =>
        have := length_exponent? he
        grind

theorem length_first? {cs : List Char} {r : Token × List Char}
    (h : first? cs = some r) : r.2.length < cs.length := by
  unfold first? at h
  split at h
  case h_7 rest =>
    unfold string? at h
    split at h
    · next hp =>
      have := length_pieces hp
      grind
    · grind
  case h_11 rest =>
    have := length_unsigned? h
    grind
  case h_12 => exact length_unsigned? h
  all_goals grind

end ResumableUpload.Json
