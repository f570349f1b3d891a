import ResumableUpload.Fault.Call

/-!
# Scripted replies

In a rehearsal the server's replies are written down beforehand: how long each takes, and what it
is. A script is a list of replies, used one after the other; the last one repeats.
-/

namespace ResumableUpload.Rehearsal

/-- A reply written down beforehand. -/
structure Scripted (α : Type) where
  delay : Nat := 0
  cancels : Option Nat := none
  crash : Option String := none
  result : Except CallFault α

def replyAt? (script : List α) (n : Nat) : Option α :=
  script[min n (script.length - 1)]?

end ResumableUpload.Rehearsal
