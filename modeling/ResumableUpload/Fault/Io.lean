/-!
# Faults of the local file system

The ways in which looking up, reading or writing a local file can fail. Each has a name and a
wording of its own.
-/

namespace ResumableUpload

/-- Why an operation on local files failed. -/
inductive IoFault
  | notFound
  | permissionDenied
  | alreadyExists
  | isADirectory
  | notADirectory
  | invalidArgument
  | storageFull
  | unexpectedEof
  | notAFile (quotedPath : String)
  | invalidData
  | nulInName
  | nameTooLong
  | task (report : String)
  | numbered (code : Int)
  deriving DecidableEq

namespace IoFault

def ofNumber : Int → IoFault
  | 2 => notFound
  | 13 => permissionDenied
  | 17 => alreadyExists
  | 20 => notADirectory
  | 21 => isADirectory
  | 22 => invalidArgument
  | 28 => storageFull
  | 36 => nameTooLong
  | n => numbered n

def name : IoFault → String
  | notFound => "NotFound"
  | permissionDenied => "PermissionDenied"
  | alreadyExists => "AlreadyExists"
  | isADirectory => "IsADirectory"
  | notADirectory => "NotADirectory"
  | invalidArgument => "InvalidInput"
  | storageFull => "StorageFull"
  | unexpectedEof => "UnexpectedEof"
  | notAFile _ => "InvalidInput"
  | invalidData => "InvalidData"
  | nulInName => "InvalidInput"
  | nameTooLong => "InvalidFilename"
  | task _ => "Other"
  | numbered _ => "Uncategorized"

def text : IoFault → String
  | notFound => "No such file or directory (os error 2)"
  | permissionDenied => "Permission denied (os error 13)"
  | alreadyExists => "File exists (os error 17)"
  | isADirectory => "Is a directory (os error 21)"
  | notADirectory => "Not a directory (os error 20)"
  | invalidArgument => "Invalid argument (os error 22)"
  | storageFull => "No space left on device (os error 28)"
  | unexpectedEof => "failed to fill whole buffer"
  | notAFile path => "不是文件: " ++ path
  | invalidData => "stream did not contain valid UTF-8"
  | nulInName => "file name contained an unexpected NUL byte"
  | nameTooLong => "File name too long (os error 36)"
  | task report => report
  | numbered n => s!"Unknown error {n} (os error {n})"

end IoFault

end ResumableUpload
