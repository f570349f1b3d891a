import ResumableUpload.Toml.Draft
import ResumableUpload.Toml.Lexer
import ResumableUpload.Toml.Number

/-!
# Reading TOML

A text is a row of lines: headers that open tables, and keys with their values. The lines are read
first (`lines?`), each with its value complete; then the tables are built from them (`read?`).

Arrays and inline tables may be nested up to a fixed depth, so a value is read by recursion on the
depth that is left.
-/

namespace ResumableUpload.Toml

/-! ### Values -/

abbrev ValueReader := List Char → Option (Toml × List Char)

/-- A value that holds no other. -/
def plain? : ValueReader
  | '"' :: cs => (string? ('"' :: cs)).map fun (s, rest) => (.text s, rest)
  | '\'' :: cs => (string? ('\'' :: cs)).map fun (s, rest) => (.text s, rest)
  | 't' :: 'r' :: 'u' :: 'e' :: rest => some (.bool true, rest)
  | 'f' :: 'a' :: 'l' :: 's' :: 'e' :: rest => some (.bool false, rest)
  | cs =>
    match moment? cs with
    | some rest => some (.moment, rest)
    | none =>
      match number? cs with
      | some (.int n, rest) => some (.int n, rest)
      | some (.float, rest) => some (.float, rest)
      | none => none

/-- The items of an array and its closing bracket. A comma may follow the last item. -/
def items? (value? : ValueReader) (done : List Toml) (cs : List Char) :
    Option (List Toml × List Char) :=
  match skipGap .line cs with
  | none => none
  | some (']' :: rest) => some (done.reverse, rest)
  | some start =>
    match value? start with
    | none => none
    | some (v, rest) =>
      match skipGap .line rest with
      | some (',' :: rest) =>
        if rest.length < cs.length then items? value? (v :: done) rest else none
      | some (']' :: rest) => some ((v :: done).reverse, rest)
      | _ => none
termination_by cs.length

/-- The key at the front of a text, its path and its last part, and the text after the sign that
follows it. -/
def keyBefore? (sign : Char) (cs : List Char) : Option (List String × String × List Char) :=
  match key? cs with
  | some (parts, c :: rest) =>
    match parts.getLast? with
    | some key => if c == sign then some (parts.dropLast, key, rest) else none
    | none => none
  | _ => none

/-- The entries of an inline table and its closing brace. No comma follows the last entry. -/
def entries? (value? : ValueReader) (done : List Draft.Line) (cs : List Char) :
    Option (List Draft.Line × List Char) :=
  match keyBefore? '=' cs with
  | none => none
  | some (path, key, rest) =>
    match value? (skipBlanks rest) with
    | none => none
    | some (v, rest) =>
      match skipBlanks rest with
      | ',' :: rest =>
        if rest.length < cs.length then entries? value? ((path, key, v) :: done) rest else none
      | '\x7d' :: rest => some (((path, key, v) :: done).reverse, rest)
      | _ => none
termination_by cs.length

def array? (value? : ValueReader) (cs : List Char) : Option (Toml × List Char) :=
  match items? value? [] cs with
  | some (items, rest) => some (.array items, rest)
  | none => none

def inlineTable? (value? : ValueReader) (cs : List Char) : Option (Toml × List Char) :=
  match skipBlanks cs with
  | '\x7d' :: rest => some (.table [], rest)
  | start =>
    match entries? value? [] start with
    | some (lines, rest) =>
      match Draft.empty.putAll lines with
      | some t => some (t.finish, rest)
      | none => none
    | none => none

/-- A value in which others may be nested as deeply as `depth`. -/
def value? : Nat → ValueReader
  | 0, cs =>
    match cs with
    | '[' :: _ | '\x7b' :: _ => none
    | cs => plain? cs
  | depth + 1, cs =>
    match cs with
    | '[' :: rest => array? (value? depth) rest
    | '\x7b' :: rest => inlineTable? (value? depth) rest
    | cs => plain? cs

/-- How deeply arrays and inline tables may be nested. -/
def maxDepth : Nat := 79

/-! ### Lines -/

/-- A line that says something. -/
inductive Line
  | header (h : Draft.Header)
  | entry (l : Draft.Line)

/-- A line that starts with something else than a blank, and the text after it. -/
def line? : List Char → Option (Option Line × List Char)
  | '#' :: cs => (lineEnd? ('#' :: cs)).map fun rest => (none, rest)
  | '\n' :: rest => some (none, rest)
  | '\r' :: '\n' :: rest => some (none, rest)
  | '[' :: '[' :: cs =>
    match keyBefore? ']' cs with
    | some (path, key, ']' :: rest) =>
      (lineEnd? rest).map fun rest => (some (.header (.item path key)), rest)
    | _ => none
  | '[' :: cs =>
    match keyBefore? ']' cs with
    | some (path, key, rest) =>
      (lineEnd? rest).map fun rest => (some (.header (.table path key)), rest)
    | none => none
  | cs =>
    match keyBefore? '=' cs with
    | none => none
    | some (path, key, rest) =>
      match value? maxDepth (skipBlanks rest) with
      | none => none
      | some (v, rest) => (lineEnd? rest).map fun rest => (some (.entry (path, key, v)), rest)

def lines? (done : List Line) (cs : List Char) : Option (List Line) :=
  match skipBlanks cs with
  | [] => some done.reverse
  | start =>
    match line? start with
    | none => none
    | some (line, rest) =>
      if rest.length < cs.length then lines? (line.toList ++ done) rest else none
termination_by cs.length

/-! ### Documents -/

/-- A document: the entries before the first header, and the tables with headers. -/
structure Document where
  entries : List Draft.Line
  tables : List (Draft.Header × List Draft.Line)

def Document.cons (d : Document) : Line → Document
  | .entry l => ⟨l :: d.entries, d.tables⟩
  | .header h => ⟨[], (h, d.entries) :: d.tables⟩

def Document.ofLines (lines : List Line) : Document := lines.foldr (fun l d => d.cons l) ⟨[], []⟩

def Document.build (d : Document) : Option Draft := do
  let root ← Draft.empty.putAll d.entries
  d.tables.foldlM (fun root (header, lines) => root.openTable header lines) root

def skipMark : List Char → List Char
  | '\uFEFF' :: rest => rest
  | cs => cs

def read? (s : String) : Option Toml := do
  let lines ← lines? [] (skipMark s.toList)
  let root ← (Document.ofLines lines).build
  some root.finish

end ResumableUpload.Toml
