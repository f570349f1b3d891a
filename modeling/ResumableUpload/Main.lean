import ResumableUpload.CommandLine.Upload
import Std.Time.DateTime.Timestamp

/-!
# The program

Reads the arguments, the environment and the files that an upload looks at, runs the upload, and
writes what it says and the files that it changed. There is no way to the server from here: the
session takes the course that it has without one (`withoutServer`).
-/

namespace ResumableUpload.CommandLine

def placeOf (home : List String) (p : Path) : List String :=
  p.names.foldl
    (fun place name =>
      if name == "." then place else if name == ".." then place.dropLast else place ++ [name])
    (if p.absolute then [] else home)

def probe (path : String) : IO (Option Node) := do
  try
    let content ← IO.FS.readBinFile path
    return some (.file content true)
  catch _ =>
    try
      let _ ← IO.FS.realPath path
      return some (.folder true)
    catch _ => return none

def takeUp (files : Files) (text : String) : IO Files := do
  match Path.ofText? text with
  | none => return files
  | some p =>
    (List.range p.names.length).foldlM
      (fun files n => do
        let above := p.upTo (n + 1)
        match ← probe above.text with
        | none => return files
        | some node => return files.put (placeOf files.home above) node)
      files

/-- Writes a file to the disk if it was changed. -/
def putBack (before after : Files) (path : String) : IO Unit := do
  match before.read path, after.read path with
  | old, .ok content =>
    if old.toOption != some content then
      if let some parent := (Path.ofText? path).bind Path.parent? then
        if !parent.names.isEmpty then IO.FS.createDirAll parent.text
      IO.FS.writeBinFile path content
  | _, .error _ => return

/-- A random identifier of the fourth version from sixteen bytes. -/
def identifier (bytes : ByteArray) : String :=
  let fixed := bytes.toList.mapIdx fun i b =>
    if i = 6 then (b &&& 0x0f) ||| 0x40 else if i = 8 then (b &&& 0x3f) ||| 0x80 else b
  let digits := fixed.flatMap Text.Hex.ofByte
  let part (start len : Nat) : String := String.ofList ((digits.drop start).take len)
  "-".intercalate [part 0 8, part 8 4, part 12 4, part 16 4, part 20 12]

def pathsOf (files : Files) (a : Arguments) : List String :=
  [a.config, a.file] ++ (Settings.loadOrDefault files a.config).settings.progressFile.toList

def start (args : List String) : IO UInt32 := do
  let token ← IO.getEnv "BAIDU_ACCESS_TOKEN"
  let home := ((← IO.currentDir).toString.splitOn "/").filter (!·.isEmpty)
  let nowhere : Files := ⟨home, [(home, .folder true)]⟩
  let paths : List String × Files ←
    match Wish.ofArguments args token with
    | .upload a => do
      let files ← takeUp nowhere a.config
      let paths := pathsOf files a
      pure (paths, ← paths.foldlM takeUp files)
    | _ => pure ([], nowhere)
  let ending := run {
    files := paths.2
    args := args
    token := token
    filter := .ofEnvironment (← IO.getEnv "RUST_LOG")
    sessionId := identifier (← IO.getRandomBytes 16)
    clock := (← Std.Time.Timestamp.now).toSecondsSinceUnixEpoch.val }
  for s in ending.output do IO.print s.written
  paths.1.forM (putBack paths.2 ending.files)
  if let some complaint := ending.complaint then IO.eprintln complaint
  return UInt32.ofNat ending.code

end ResumableUpload.CommandLine

def main (args : List String) : IO UInt32 := ResumableUpload.CommandLine.start args
