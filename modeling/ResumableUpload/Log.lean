/-!
# Log lines

What a component says while it works: lines of text, each with a level. Operations hand back the
lines they write, in order, beside their result.
-/

namespace ResumableUpload

/-- How urgent a log line is, the most urgent first. -/
inductive LogLevel
  | error
  | warn
  | info
  | debug
  deriving DecidableEq

def LogLevel.name : LogLevel → String
  | error => "ERROR"
  | warn => "WARN"
  | info => "INFO"
  | debug => "DEBUG"

def LogLevel.rank : LogLevel → Nat
  | error => 0
  | warn => 1
  | info => 2
  | debug => 3

/-- One line of the log. -/
structure LogLine where
  level : LogLevel
  text : String
  deriving DecidableEq

namespace LogLine

def error (text : String) : LogLine := ⟨.error, text⟩

def warn (text : String) : LogLine := ⟨.warn, text⟩

def info (text : String) : LogLine := ⟨.info, text⟩

def debug (text : String) : LogLine := ⟨.debug, text⟩

def shown (l : LogLine) : String := l.level.name ++ " " ++ l.text

end LogLine

end ResumableUpload
