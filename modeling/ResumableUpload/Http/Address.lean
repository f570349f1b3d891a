import ResumableUpload.Text.Percent

/-!
# Addresses on the web

An address names a host, a path on it, and perhaps a query and a fragment. Reading one drops blanks
around it and line ends within, takes a backslash for a slash, follows the names `.` and `..` in the
path, and escapes what an address cannot hold, so that an address that was read is written the same
way by everybody (`Address.text`). Hosts are names or numbers of letters, digits, dots, hyphens and
low lines.
-/

namespace ResumableUpload.Http

/-- An address on the web. -/
structure Address where
  secure : Bool
  host : String
  /-- The port, unless it is the usual one. -/
  port : Option Nat
  path : String
  query : Option String
  fragment : Option String
  deriving DecidableEq

namespace Address

/-! ### Reading -/

def isSlash (c : Char) : Bool := c == '/' || c == '\\'

/-- A line end or a tab, which does not count inside an address. -/
def isSkipped (c : Char) : Bool := c == '\t' || c == '\n' || c == '\r'

def trim (cs : List Char) : List Char :=
  ((cs.dropWhile (· ≤ ' ')).reverse.dropWhile (· ≤ ' ')).reverse

def scheme? (cs : List Char) : Option (Bool × List Char) :=
  let name := cs.takeWhile (· != ':')
  let rest := (cs.dropWhile (· != ':')).drop 1
  match String.ofList (name.map Char.toLower) with
  | "http" => some (false, rest)
  | "https" => some (true, rest)
  | _ => none

def isHostChar (c : Char) : Bool := c.isAlphanum || ['-', '.', '_'].contains c

/-- The port that digits give; none if it is the usual one. -/
def port? (secure : Bool) (digits : List Char) : Option (Option Nat) :=
  let n := digits.foldl (fun n c => 10 * n + (c.toNat - 48)) 0
  if !digits.all Char.isDigit || 65535 < n then none
  else if digits.isEmpty || n = (if secure then 443 else 80) then some none
  else some (some n)

def pieces (current : List Char) : List Char → List (List Char)
  | [] => [current.reverse]
  | c :: rest => if isSlash c then current.reverse :: pieces [] rest else pieces (c :: current) rest

def isHere (name : List Char) : Bool :=
  [".", "%2e"].contains (String.ofList (name.map Char.toLower))

def isUp (name : List Char) : Bool :=
  ["..", ".%2e", "%2e.", "%2e%2e"].contains (String.ofList (name.map Char.toLower))

def walk (above : List (List Char)) : List (List Char) → List (List Char)
  | [] => above.reverse
  | [name] =>
    if isUp name then ([] :: above.drop 1).reverse
    else if isHere name then ([] :: above).reverse
    else (name :: above).reverse
  | name :: rest =>
    if isUp name then walk (above.drop 1) rest
    else if isHere name then walk above rest
    else walk (name :: above) rest

def pathText (cs : List Char) : String :=
  let names := walk [] ((pieces [] (cs.drop 1)).map (Text.Percent.encode Text.Percent.inPath))
  String.ofList (names.flatMap fun name => '/' :: name)

def cut (mark : Char) (cs : List Char) : List Char × Option (List Char) :=
  match cs.dropWhile (· != mark) with
  | [] => (cs, none)
  | _ :: rest => (cs.takeWhile (· != mark), some rest)

def read? (s : String) : Option Address := do
  let cs := (trim s.toList).filter (!isSkipped ·)
  let (secure, rest) ← scheme? cs
  let rest := rest.dropWhile isSlash
  let ends (c : Char) : Bool := isSlash c || c == '?' || c == '#'
  let (host, digits) := cut ':' (rest.takeWhile (!ends ·))
  guard (!host.isEmpty && host.all isHostChar)
  let port ← port? secure (digits.getD [])
  let (rest, fragment) := cut '#' (rest.dropWhile (!ends ·))
  let (path, query) := cut '?' rest
  pure {
    secure := secure
    host := String.ofList (host.map Char.toLower)
    port := port
    path := pathText path
    query := query.map fun q => String.ofList (Text.Percent.encode Text.Percent.inQuery q)
    fragment := fragment.map fun f =>
      String.ofList (Text.Percent.encode Text.Percent.inFragment f) }

/-! ### Writing -/

/-- Path and query, which a request asks for. -/
def target (a : Address) : String :=
  a.path ++
    match a.query with
    | some q => "?" ++ q
    | none => ""

def text (a : Address) : String :=
  let port :=
    match a.port with
    | some n => ":" ++ toString n
    | none => ""
  let fragment :=
    match a.fragment with
    | some f => "#" ++ f
    | none => ""
  (if a.secure then "https://" else "http://") ++ a.host ++ port ++ a.target ++ fragment

def withQuery (a : Address) (pairs : List (String × String)) : Address :=
  let more := Text.Percent.form pairs
  { a with
    query :=
      match a.query with
      | none => some more
      | some q => some (if q.isEmpty then more else q ++ "&" ++ more) }

end Address

end ResumableUpload.Http
