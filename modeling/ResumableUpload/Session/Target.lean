import ResumableUpload.Files
import ResumableUpload.Json.Record

/-!
# What is uploaded, and as whom

A target names a local file, its path on the server and the access token. Messages show no more of
a token than its first six characters, and of an application's credentials never the secret.
-/

namespace ResumableUpload.Session

/-- The credentials of an application. -/
structure Credentials where
  clientId : String
  clientSecret : String
  deriving DecidableEq

namespace Credentials

def fieldNames : List String := ["client_id", "client_secret"]

def toJson (c : Credentials) : Json :=
  .record [("client_id", .text c.clientId), ("client_secret", .text c.clientSecret)]

def ofJson? (v : Json) : Option Credentials := do
  let r ← Json.fields? fieldNames v
  pure {
    clientId := ← r.required "client_id" Json.text?
    clientSecret := ← r.required "client_secret" Json.text? }

def shown (c : Credentials) : String :=
  "ClientCredentials \x7b client_id: " ++ Text.quoted c.clientId
    ++ ", client_secret: \"***\" \x7d"

end Credentials

def maskToken (token : String) : String := String.ofList (token.toList.take 6) ++ "..."

/-- What is uploaded, and as whom. -/
structure Target where
  localPath : String
  remotePath : String
  totalSize : Nat
  accessToken : String
  credentials : Option Credentials := none
  deriving DecidableEq

namespace Target

def ofLocalFile (files : Files) (localPath remotePath accessToken : String) :
    Except IoFault Target :=
  match files.fileSize localPath with
  | .ok size => .ok ⟨localPath, remotePath, size, accessToken, none⟩
  | .error fault => .error fault

def shown (t : Target) : String :=
  let credentials :=
    match t.credentials with
    | some c => "Some(" ++ c.shown ++ ")"
    | none => "None"
  "UploadTarget \x7b local_path: " ++ Text.quoted t.localPath
    ++ ", remote_path: " ++ Text.quoted t.remotePath
    ++ ", total_size: " ++ toString t.totalSize
    ++ ", access_token: " ++ Text.quoted (maskToken t.accessToken)
    ++ ", credentials: " ++ credentials ++ " \x7d"

end Target

end ResumableUpload.Session
