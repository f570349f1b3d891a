import ResumableUpload.Fault.Kind
import ResumableUpload.Http.Status

/-!
# The fault of one call

A failed call is described by the kind of its fault, the error number in the reply if there was
one, and a message.
-/

namespace ResumableUpload

/-- Why one call to the server failed. -/
structure CallFault where
  kind : FaultKind
  errno : Option Int
  message : String
  deriving DecidableEq

namespace CallFault

def plain (kind : FaultKind) (message : String) : CallFault := ⟨kind, none, message⟩

def ofErrno (n : Int) (message : String) : CallFault := ⟨.ofErrno n, some n, message⟩

def ofStatus (status : Http.Status) (body : String) : CallFault :=
  plain (.ofStatus status.code) ("HTTP " ++ status.text ++ ": " ++ body)

def isRetriable (f : CallFault) : Bool := f.kind.isRetriable

def text (f : CallFault) : String :=
  match f.errno with
  | some n => s!"{f.kind.label} (errno={n}): {f.message}"
  | none => s!"{f.kind.label}: {f.message}"

end CallFault

end ResumableUpload
