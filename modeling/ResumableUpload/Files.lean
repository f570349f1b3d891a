import ResumableUpload.Fault.Io
import ResumableUpload.Text.Quoted

/-!
# Local files

A tree of folders and files, kept as a list of places. A place is the list of names that leads to it
from the top. A path is followed name by name: every name but the last must stand for a folder, `.`
stays, `..` goes one up, and a path that ends in a slash must end in a folder. No name has more than
255 bytes.

Files and folders may be closed to writing. A folder closed to writing takes no new names.
-/

namespace ResumableUpload

/-! ### Paths -/

/-- A path, cut into names. -/
structure Path where
  absolute : Bool
  names : List String
  /-- The path ends in a slash or in `.` after a name, so it stands for a folder. -/
  needsFolder : Bool
  deriving DecidableEq

namespace Path

def pieces (current : List Char) : List Char → List (List Char)
  | [] => [current.reverse]
  | '/' :: rest => current.reverse :: pieces [] rest
  | c :: rest => pieces (c :: current) rest

/-- The path that a text stands for; an empty text is none. -/
def ofText? (s : String) : Option Path :=
  let parts := (pieces [] s.toList).map String.ofList
  match parts with
  | [""] => none
  | first :: _ =>
    let absolute := first == ""
    let named := parts.filter (· != "")
    let inner := named.drop 1 |>.filter (· != ".")
    let names :=
      match named.head? with
      | some "." => if absolute then inner else "." :: inner
      | some name => name :: inner
      | none => []
    let last := parts.getLast?.getD ""
    some ⟨absolute, names, last == "" || (last == "." && 1 < named.length)⟩
  | [] => none

/-- The path without its last name; there is none above the top. -/
def parent? (p : Path) : Option Path :=
  if p.names.isEmpty then none else some ⟨p.absolute, p.names.dropLast, false⟩

/-- The path that starts in the same way and has the first `n` names. -/
def upTo (p : Path) (n : Nat) : Path := ⟨p.absolute, p.names.take n, false⟩

def text (p : Path) : String :=
  (if p.absolute then "/" else "") ++ "/".intercalate p.names

end Path

/-! ### The tree -/

/-- What stands at a place. -/
inductive Node
  | file (content : ByteArray) (writable : Bool)
  | folder (writable : Bool)

/-- A tree of folders and files, and the folder that relative paths start from. -/
structure Files where
  home : List String := ["home"]
  nodes : List (List String × Node) := [(["home"], .folder true)]

namespace Files

/-- What stands at a place; the top is a folder. -/
def node? (files : Files) (place : List String) : Option Node :=
  match files.nodes.find? (·.1 == place) with
  | some (_, node) => some node
  | none => if place.isEmpty then some (.folder true) else none

def put (files : Files) (place : List String) (node : Node) : Files :=
  { files with nodes := files.nodes.filter (·.1 != place) ++ [(place, node)] }

/-- Where a path leads. -/
inductive Target
  -- to something
  | found (place : List String) (node : Node)
  -- to a name that a folder does not have
  | vacant (folder : List String) (writable : Bool) (name : String)

def walk (files : Files) (place : List String) : List String → Except IoFault Target
  | [] =>
    match files.node? place with
    | some node => .ok (.found place node)
    | none => .error .notFound
  | name :: rest =>
    match files.node? place with
    | none => .error .notFound
    | some (.file _ _) => .error .notADirectory
    | some (.folder writable) =>
      if name == "." then walk files place rest
      else if name == ".." then walk files place.dropLast rest
      else if 255 < name.utf8ByteSize then .error .nameTooLong
      else if (files.node? (place ++ [name])).isSome then walk files (place ++ [name]) rest
      else if rest.isEmpty then .ok (.vacant place writable name)
      else .error .notFound

/-- What is wrong with a path before any of it is followed. -/
def nameFault? (path : String) : Option IoFault :=
  if path.toList.contains '\x00' then some .nulInName
  else if 4096 ≤ path.utf8ByteSize then some .nameTooLong
  else none

def follow (files : Files) (path : Path) : Except IoFault Target :=
  walk files (if path.absolute then [] else files.home) path.names

def find (files : Files) (path : String) : Except IoFault Node :=
  match nameFault? path, Path.ofText? path with
  | some fault, _ => .error fault
  | none, none => .error .notFound
  | none, some p =>
    match files.follow p with
    | .error fault => .error fault
    | .ok (.vacant ..) => .error .notFound
    | .ok (.found _ (.file content writable)) =>
      if p.needsFolder then .error .notADirectory else .ok (.file content writable)
    | .ok (.found _ node) => .ok node

def contains (files : Files) (path : String) : Bool := (files.find path).isOk

def read (files : Files) (path : String) : Except IoFault ByteArray :=
  match files.find path with
  | .ok (.file content _) => .ok content
  | .ok (.folder _) => .error .isADirectory
  | .error fault => .error fault

def readText (files : Files) (path : String) : Except IoFault String :=
  match files.read path with
  | .ok content =>
    match String.fromUTF8? content with
    | some s => .ok s
    | none => .error .invalidData
  | .error fault => .error fault

/-- The size of a file; anything else is no file. -/
def fileSize (files : Files) (path : String) : Except IoFault Nat :=
  match files.find path with
  | .ok (.file content _) => .ok content.size
  | .ok (.folder _) => .error (.notAFile (Text.quoted path))
  | .error fault => .error fault

/-- Gives a file a new content; the file is made if its folder is there. -/
def write (files : Files) (path : String) (content : ByteArray) : Except IoFault Files :=
  match nameFault? path, Path.ofText? path with
  | some fault, _ => .error fault
  | none, none => .error .notFound
  | none, some p =>
    match files.follow p with
    | .error fault => .error fault
    | .ok (.found _ (.folder _)) => .error .isADirectory
    | .ok (.found place (.file _ writable)) =>
      if p.needsFolder then .error .notADirectory
      else if writable then .ok (files.put place (.file content true))
      else .error .permissionDenied
    | .ok (.vacant folder writable name) =>
      if p.needsFolder then .error .isADirectory
      else if writable then .ok (files.put (folder ++ [name]) (.file content true))
      else .error .permissionDenied

def makeFolder (files : Files) (p : Path) : Except IoFault Files :=
  match files.follow p with
  | .error fault => .error fault
  | .ok (.found ..) => .error .alreadyExists
  | .ok (.vacant folder writable name) =>
    if writable then .ok (files.put (folder ++ [name]) (.folder true))
    else .error .permissionDenied

def isFolder (files : Files) (p : Path) : Bool :=
  match files.follow p with
  | .ok (.found _ (.folder _)) => true
  | _ => false

/-- Makes a folder unless it is there already. -/
def ensureFolder (files : Files) (p : Path) : Except IoFault Files :=
  match files.makeFolder p with
  | .ok files => .ok files
  | .error fault => if files.isFolder p then .ok files else .error fault

/-- Why a folder could not be made, and the tree with the folders that were made before it. -/
structure Unmade where
  fault : IoFault
  files : Files

/-- Makes a folder and those above it, from below as far up as any is missing. Folders that were made
stay, also if one below them cannot be made. -/
def ensureAbove (files : Files) (p : Path) : Nat → Except Unmade Files
  | 0 => .ok files
  | n + 1 =>
    match files.makeFolder (p.upTo (n + 1)) with
    | .ok files => .ok files
    | .error .notFound =>
      match ensureAbove files p n with
      | .ok files =>
        match files.ensureFolder (p.upTo (n + 1)) with
        | .ok files => .ok files
        | .error fault => .error ⟨fault, files⟩
      | .error unmade => .error unmade
    | .error fault => if files.isFolder (p.upTo (n + 1)) then .ok files else .error ⟨fault, files⟩

def makeFolders (files : Files) (p : Path) : Except Unmade Files :=
  files.ensureAbove p p.names.length

def makeParents (files : Files) (path : String) : Except Unmade Files :=
  match (Path.ofText? path).bind Path.parent? with
  | none => .ok files
  | some p =>
    match nameFault? p.text with
    | some fault => .error ⟨fault, files⟩
    | none => files.makeFolders p

def remove (files : Files) (path : String) : Files :=
  match Path.ofText? path with
  | none => files
  | some p =>
    match files.follow p with
    | .ok (.found place (.file ..)) =>
      { files with nodes := files.nodes.filter (·.1 != place) }
    | _ => files

end Files

end ResumableUpload
