import ResumableUpload.CommandLine.Arguments
import ResumableUpload.CommandLine.Filter
import ResumableUpload.CommandLine.Sitting
import ResumableUpload.Settings.File

/-!
# One upload from the command line

The program loads its settings, sets aside what the arguments ask for, loads resume records if it
keeps any, runs one session, and saves the records again. It says what it does in the log, and ends
with a result or with a complaint. What its session meets is left to the environment: the order in
which its tasks go on, what the server answers, and when the program is interrupted, if it is.
-/

namespace ResumableUpload.CommandLine

open Session

/-- A text is part of another one. -/
def includes (part : List Char) : List Char → Bool
  | [] => part.isEmpty
  | c :: rest => part.isPrefixOf (c :: rest) || includes part rest

/-- A shown line after which the program is interrupted. -/
def interrupts (filter : Filter) (interruptAt : Option String) (l : LogLine) : Bool :=
  match interruptAt with
  | some part => filter.shows l && includes part.toList l.text.toList
  | none => false

/-- What the program finds when it starts, and what its session meets. -/
structure Environment where
  files : Files
  args : List String
  token : Option String := none
  filter : Filter := some .info
  sessionId : String
  clock : Int := 0
  interruptAt : Option String := none
  -- what happens to the session, from its start
  course : Sitting → List Happening := withoutServer (interrupts filter interruptAt)

/-- What is written to standard output: a line of the log, or whole lines of text. -/
inductive Shown
  | log (l : LogLine)
  | text (s : String)

def Shown.written : Shown → String
  | log l => l.shown ++ "\n"
  | text s => s

/-- How the program ended. -/
structure Ending where
  code : Nat
  output : List Shown
  complaint : Option String
  files : Files

/-! ### The upload -/

/-- The session before its run takes the first step. -/
def openSession (env : Environment) (settings : Settings) (store : Resume.Store) (target : Target)
    (said : List LogLine) : Sitting :=
  let engine : Engine := { world := { files := env.files, store := store, clock := env.clock } }
  let (engine, uploader) := engine.addUploader settings
  let (engine, handle, lines) := engine.start env.sessionId uploader target
  { engine := (engine.run handle).1, lines := said ++ lines }

/-- The session after all that happens to it. -/
def runSession (env : Environment) (settings : Settings) (store : Resume.Store) (target : Target)
    (said : List LogLine) : Sitting :=
  let s := openSession env settings store target said
  (env.course s).foldl Sitting.meet s

def adjust (a : Arguments) (s : Settings) : Settings :=
  { s with
    uploadThread := a.threads.getD s.uploadThread
    customUploadPartSize := a.partSize.getD s.customUploadPartSize
    lowBandwidthUploadMode := a.lowBandwidth || s.lowBandwidthUploadMode }

def shownLines (env : Environment) (lines : List LogLine) : List Shown :=
  (lines.filter env.filter.shows).map Shown.log

def complain (env : Environment) (files : Files) (lines : List LogLine) (text : String) : Ending :=
  ⟨1, shownLines env lines, some ("Error: " ++ text), files⟩

/-- Saves the resume records if any are kept. -/
def saveRecords (settings : Settings) (store : Resume.Store) (files : Files) :
    Files × List LogLine :=
  match settings.progressFile with
  | none => (files, [])
  | some path =>
    match store.save files path with
    | (files, none) => (files, [])
    | (files, some fault) => (files, [.error s!"保存断点续传记录失败: {fault.text}"])

/-- The resume records if any are kept. -/
def loadRecords (settings : Settings) (files : Files) :
    Except Resume.Store.Fault (Resume.Store × List LogLine) :=
  match settings.progressFile with
  | none => .ok ({}, [])
  | some path => Resume.Store.load files path

/-- What is said when the program starts. -/
def startNotice : LogLine := .info s!"百度网盘上传 v{programVersion} 启动中..."

/-- The session has a result: the records are saved, whatever it is. -/
def conclude (env : Environment) (settings : Settings) (s : Sitting)
    (result : Except UploadFault Commit) : Ending :=
  let (files, more) := saveRecords settings s.engine.world.store env.files
  let lines := s.lines ++ more
  match result with
  | .ok c =>
    let line := LogLine.info (s!"上传成功: {c.path} (fs_id={c.fsId}, 大小={c.size}, "
      ++ s!"秒传={c.rapid})")
    ⟨0, shownLines env (lines ++ [line]) ++ [.text (c.toJson.pretty ++ "\n")], none, files⟩
  | .error f =>
    let advice := if f.isRestartable then [LogLine.info "可以重新执行该命令重试上传"] else []
    complain env files (lines ++ advice) f.text

/-- The program stops before its session has a result: the task of the run stops abnormally, and the
program with it, or the program is killed. -/
def breakOff (env : Environment) (s : Sitting) : Option Engine.Ending → Ending
  | some (.crashed report) => ⟨101, shownLines env s.lines, some report, env.files⟩
  | _ => ⟨137, shownLines env s.lines, none, env.files⟩

/-- What the program does when nothing more happens to its session. -/
def finish (env : Environment) (settings : Settings) (s : Sitting) : Ending :=
  match s.engine.ending? 0 with
  | some (.result result) => conclude env settings s result
  | ending => breakOff env s ending

def upload (env : Environment) (a : Arguments) (settings : Settings) (store : Resume.Store)
    (said : List LogLine) : Ending :=
  match Target.ofLocalFile env.files a.file a.remotePath a.accessToken with
  | .error _ => complain env env.files said s!"无法读取本地文件: {Text.quoted a.file}"
  | .ok target => finish env settings (runSession env settings store target said)

def begin (env : Environment) (a : Arguments) : Ending :=
  let loaded := Settings.loadOrDefault env.files a.config
  let env := { env with files := loaded.files }
  let settings := adjust a loaded.settings
  let said := startNotice :: loaded.notices
  match settings.problem? with
  | some p => complain env env.files said s!"配置无效: {p.text}"
  | none =>
    match loadRecords settings env.files with
    | .error fault => complain env env.files said fault.text
    | .ok (store, notices) => upload env a settings store (said ++ notices)

def run (env : Environment) : Ending :=
  match Wish.ofArguments env.args env.token with
  | .help => ⟨0, [.text helpText], none, env.files⟩
  | .version => ⟨0, [.text versionText], none, env.files⟩
  | .mistake => ⟨2, [], some usage, env.files⟩
  | .upload a => begin env a

end ResumableUpload.CommandLine
