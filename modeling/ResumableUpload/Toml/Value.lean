/-!
# TOML values

A value as a settings file gives it. Of a number that is no integer and of a date or time only the
kind is kept, since no setting is of these kinds.
-/

namespace ResumableUpload

/-- A TOML value. -/
inductive Toml
  | text (s : String)
  | int (n : Int)
  | float
  | bool (b : Bool)
  | moment
  | array (items : List Toml)
  | table (entries : List (String × Toml))

end ResumableUpload
