import ResumableUpload.Log

/-!
# Which log lines are shown

The environment says which lines of the log are shown: those of a level and all more urgent ones.
Without a word they are shown down to level `info`, and so they are if the word cannot be
understood; an empty word leaves errors. The name of a module other than this program leaves
nothing.
-/

namespace ResumableUpload.CommandLine

/-- The least urgent level that is shown, if any is. -/
abbrev Filter := Option LogLevel

namespace Filter

def shows (f : Filter) (l : LogLine) : Bool :=
  match f with
  | some level => l.level.rank ≤ level.rank
  | none => false

/-- The filter that the name or the number of a level gives, in any case. -/
def ofLevel? (s : String) : Option Filter :=
  match String.ofList (s.toList.map Char.toLower) with
  | "off" | "0" => some none
  | "error" | "1" => some (some .error)
  | "warn" | "2" => some (some .warn)
  | "info" | "3" => some (some .info)
  | "debug" | "4" | "trace" | "5" => some (some .debug)
  | _ => none

/-- The filter that a word asks for: a level, or the name of a module, perhaps with a level behind a
sign of equality, which shows no lines of this program. -/
def ofWord? (word : String) : Option Filter :=
  match word.splitOn "=" with
  | [one] => some ((ofLevel? one).getD none)
  | [name, level] =>
    if name.isEmpty then none
    else if level.isEmpty then some none
    else (ofLevel? level).map fun _ => none
  | _ => none

def ofEnvironment : Option String → Filter
  | none => some .info
  | some "" => some .error
  | some word => (ofWord? word).getD (some .info)

end Filter

end ResumableUpload.CommandLine
