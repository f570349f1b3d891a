import ResumableUpload.Text.Hex
import ResumableUpload.Text.Printable

/-!
# Quoted display of text

Log lines and messages show a path or a name between double quotes. A quotation mark, a backslash
and the common controls get a backslash form; any other character without a visible form, and any
mark that would join the character before it, is shown by its code point as `\u{301}`. A single
quote stands as it is, and so does every visible character.
-/

namespace ResumableUpload.Text

def escaped (c : Char) : List Char :=
  match c with
  | '\x00' => ['\\', '0']
  | '\t' => ['\\', 't']
  | '\r' => ['\\', 'r']
  | '\n' => ['\\', 'n']
  | '"' => ['\\', '"']
  | '\\' => ['\\', '\\']
  | c =>
    if isVisible c && !isExtending c then [c]
    else ['\\', 'u', '\x7b'] ++ Nat.toDigits 16 c.toNat ++ ['\x7d']

def quoted (s : String) : String :=
  String.ofList ('"' :: s.toList.flatMap escaped ++ ['"'])

/-- A list of texts in brackets, each one quoted. -/
def quotedList (items : List String) : String :=
  "[" ++ ", ".intercalate (items.map quoted) ++ "]"

end ResumableUpload.Text
