/-!
# Arguments of the command line

The program takes a local file and a path on the server, and options in between: short or long ones,
their values behind them or joined to them. Arguments are taken from left to right, and the first
one that settles the matter does: a wish for help, a wish for the version, or a mistake. An option
may be given once. After `--` everything is a plain argument. The access token can come from the
environment instead.
-/

namespace ResumableUpload.CommandLine

/-! ### Options -/

/-- The options. -/
inductive OptionName
  | accessToken
  | config
  | threads
  | partSize
  | lowBandwidth
  | help
  | version
  deriving DecidableEq

namespace OptionName

/-- All options, in the order in which the help lists them. -/
def all : List OptionName :=
  [accessToken, config, threads, partSize, lowBandwidth, help, version]

def long : OptionName → String
  | accessToken => "access-token"
  | config => "config"
  | threads => "threads"
  | partSize => "part-size"
  | lowBandwidth => "low-bandwidth"
  | help => "help"
  | version => "version"

/-- The letter, if there is one. -/
def letter? : OptionName → Option Char
  | config => some 'c'
  | threads => some 't'
  | help => some 'h'
  | version => some 'V'
  | _ => none

/-- The name of the value, if the option takes one. -/
def value? : OptionName → Option String
  | accessToken => some "ACCESS_TOKEN"
  | config => some "CONFIG"
  | threads => some "THREADS"
  | partSize => some "PART_SIZE"
  | _ => none

def about : OptionName → String
  | accessToken => "access token [env: BAIDU_ACCESS_TOKEN]"
  | config => "配置文件 [default: config/app.toml]"
  | threads => "上传线程数"
  | partSize => "分片大小（字节），0 表示自动"
  | lowBandwidth => "低带宽上传模式"
  | help => "Print help"
  | version => "Print version"

def ofLong? (name : String) : Option OptionName := all.find? fun o => o.long == name

def ofLetter? (c : Char) : Option OptionName := all.find? fun o => o.letter? == some c

end OptionName

/-! ### Help -/

def programName : String := "baidu-netdisk-uploader"

def programVersion : String := "0.1.0"

def programAbout : String := "百度网盘分片上传核心：动态上传域名、分片规划、并发上传与重试"

def plainArguments : List (String × String) :=
  [("<FILE>", "本地文件"), ("<REMOTE_PATH>", "网盘目标路径，例如 /apps/bypy/a.zip")]

def OptionName.shown (o : OptionName) : String :=
  let letter :=
    match o.letter? with
    | some c => String.ofList ['-', c, ',', ' ']
    | none => "    "
  let value :=
    match o.value? with
    | some v => " <" ++ v ++ ">"
    | none => ""
  letter ++ "--" ++ o.long ++ value

/-- Lines of two columns, the second one two blanks behind the widest entry of the first. -/
def columns (rows : List (String × String)) : String :=
  let width := rows.foldl (fun w row => max w row.1.length) 0
  String.join (rows.map fun (left, right) =>
    "  " ++ left ++ String.ofList (List.replicate (width - left.length + 2) ' ') ++ right ++ "\n")

def usage : String :=
  "Usage: " ++ programName ++ " [OPTIONS] --access-token <ACCESS_TOKEN> <FILE> <REMOTE_PATH>"

def helpText : String :=
  programAbout ++ "\n\n" ++ usage ++ "\n\nArguments:\n" ++ columns plainArguments
    ++ "\nOptions:\n"
    ++ columns (OptionName.all.map fun o => (o.shown, o.about))

def versionText : String := programName ++ " " ++ programVersion ++ "\n"

/-! ### Taking arguments -/

/-- What the arguments ask for. -/
structure Arguments where
  file : String
  remotePath : String
  accessToken : String
  config : String
  threads : Option Nat
  partSize : Option Nat
  lowBandwidth : Bool
  deriving DecidableEq

/-- What was given so far. -/
structure Given where
  file : Option String := none
  remotePath : Option String := none
  accessToken : Option String := none
  config : Option String := none
  threads : Option Nat := none
  partSize : Option Nat := none
  lowBandwidth : Bool := false

/-- What comes of the arguments. -/
inductive Wish
  | upload (a : Arguments)
  | help
  | version
  | mistake
  deriving DecidableEq

/-- A number of at most 64 binary digits, with or without a plus sign. -/
def number? (s : String) : Option Nat :=
  let digits :=
    match s.toList with
    | '+' :: rest => rest
    | cs => cs
  let n := digits.foldl (fun n c => 10 * n + (c.toNat - 48)) 0
  if digits.isEmpty || !digits.all Char.isDigit || UInt64.size ≤ n then none else some n

/-- Sets what must be given once. -/
def once (old : Option α) (new : α) : Option (Option α) :=
  match old with
  | none => some (some new)
  | some _ => none

namespace Given

/-- Takes a plain argument; a file has a name. -/
def plain (g : Given) (s : String) : Option Given :=
  match g.file, g.remotePath with
  | none, _ => if s.isEmpty then none else some { g with file := some s }
  | some _, none => some { g with remotePath := some s }
  | some _, some _ => none

def plains (g : Given) (args : List String) : Option Given := args.foldlM plain g

def valued (g : Given) (o : OptionName) (v : String) : Option Given :=
  match o with
  | .accessToken => do
    let t ← once g.accessToken v
    pure { g with accessToken := t }
  | .config => do
    let c ← once g.config v
    pure { g with config := c }
  | .threads => do
    let n ← once g.threads (← number? v)
    pure { g with threads := n }
  | .partSize => do
    let n ← once g.partSize (← number? v)
    pure { g with partSize := n }
  | .lowBandwidth | .help | .version => none

/-- What was given, with a token from the environment in reserve. -/
def finish (g : Given) (envToken : Option String) : Wish :=
  match g.file, g.remotePath, g.accessToken <|> envToken with
  | some file, some remotePath, some accessToken =>
    .upload ⟨file, remotePath, accessToken, g.config.getD "config/app.toml", g.threads,
      g.partSize, g.lowBandwidth⟩
  | _, _, _ => .mistake

end Given

/-- An argument by its form. -/
inductive Form
  /-- `--`. -/
  | mark
  | plain
  | option (o : OptionName) (value : Option String)
  | unknown

/-- The form of an argument. An option that takes a value may have it joined to it, a letter even
without a sign of equality; any other option takes none. -/
def form (arg : String) : Form :=
  match arg.toList with
  | ['-', '-'] => .mark
  | '-' :: '-' :: cs =>
    let value :=
      match cs.dropWhile (· != '=') with
      | [] => none
      | _ :: v => some (String.ofList v)
    match OptionName.ofLong? (String.ofList (cs.takeWhile (· != '='))) with
    | none => .unknown
    | some o => if o.value?.isNone && value.isSome then .unknown else .option o value
  | '-' :: c :: cs =>
    match OptionName.ofLetter? c with
    | none => .unknown
    | some o =>
      match cs with
      | [] => .option o none
      | '=' :: v => .option o (some (String.ofList v))
      | v => .option o (some (String.ofList v))
  | _ => .plain

def Form.isOption : Form → Bool
  | plain => false
  | _ => true

/-- Goes on with what was given, unless it was a mistake. -/
def Given.andThen (g : Option Given) (next : Given → Wish) : Wish :=
  match g with
  | some g => next g
  | none => .mistake

def take (envToken : Option String) (g : Given) : List String → Wish
  | [] => g.finish envToken
  | arg :: rest =>
    match form arg with
    | .mark => Given.andThen (g.plains rest) fun g => g.finish envToken
    | .plain => Given.andThen (g.plain arg) fun g => take envToken g rest
    | .unknown => .mistake
    | .option .help _ => .help
    | .option .version _ => .version
    | .option .lowBandwidth _ =>
      if g.lowBandwidth then .mistake else take envToken { g with lowBandwidth := true } rest
    | .option o (some v) => Given.andThen (g.valued o v) fun g => take envToken g rest
    | .option o none =>
      match rest with
      | [] => .mistake
      | v :: rest =>
        if (form v).isOption then .mistake
        else Given.andThen (g.valued o v) fun g => take envToken g rest

/-- What the arguments ask for, with a token from the environment in reserve. -/
def Wish.ofArguments (args : List String) (envToken : Option String) : Wish :=
  take envToken {} args

end ResumableUpload.CommandLine
