import ResumableUpload.Files
import ResumableUpload.Log
import ResumableUpload.Settings

/-!
# Settings in a file

Settings are loaded from a TOML file and saved to one. A file that cannot be loaded is replaced by
one with the defaults.
-/

namespace ResumableUpload.Settings

/-- Why settings could not be loaded or saved. -/
inductive Fault
  | unreadable
  | malformed
  | unrepresentable
  | noFolder
  | unwritable
  deriving DecidableEq

def Fault.text : Fault → String
  | unreadable => "Failed to read config file"
  | malformed => "Failed to parse config file"
  | unrepresentable => "Failed to serialize config"
  | noFolder => "Failed to create config directory"
  | unwritable => "Failed to write config file"

def load (files : Files) (path : String) : Except Fault Settings :=
  match files.readText path with
  | .error _ => .error .unreadable
  | .ok text =>
    match ofTomlText? text with
    | none => .error .malformed
    | some s => .ok s

def save (s : Settings) (files : Files) (path : String) : Files × Option Fault :=
  match s.tomlText? with
  | none => (files, some .unrepresentable)
  | some text =>
    match files.makeParents path with
    | .error unmade => (unmade.files, some .noFolder)
    | .ok files =>
      match files.write path text.toUTF8 with
      | .error _ => (files, some .unwritable)
      | .ok files => (files, none)

/-- What comes of loading settings whether or not there are any. -/
structure Loaded where
  settings : Settings
  files : Files
  notices : List LogLine

/-- The settings in a file. If they cannot be loaded, the defaults, which are then written to the
file. -/
def loadOrDefault (files : Files) (path : String) : Loaded :=
  match load files path with
  | .ok s => ⟨s, files, [.info s!"配置文件加载成功: {path}"]⟩
  | .error fault =>
    let notice := LogLine.warn s!"配置文件加载失败，使用默认配置: {fault.text}"
    match ({} : Settings).save files path with
    | (files, none) => ⟨{}, files, [notice]⟩
    | (files, some fault) => ⟨{}, files, [notice, .error s!"保存默认配置失败: {fault.text}"]⟩

end ResumableUpload.Settings
