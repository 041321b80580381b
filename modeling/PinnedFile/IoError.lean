/-
  PinnedFile.IoError

  The failures of a native file call, and the text and kind under which each is shown.
  A failure is known by a code of the operating system, by a kind alone, or by a kind
  with a message of its own; two failures of one kind are told apart by their text only.
-/

namespace PinnedFile

namespace IoError

/-- What sort of failure it is, whoever raised it. -/
inductive Kind where
  | notFound | permissionDenied | alreadyExists | wouldBlock | invalidInput | invalidData
  | timedOut | writeZero | storageFull | fileTooLarge | interrupted | unsupported
  | unexpectedEof | outOfMemory | brokenPipe | isADirectory | readOnlyFilesystem
  | quotaExceeded | notSeekable | other
  | inputOutput | notADirectory | invalidFilename | uncategorized
deriving DecidableEq, Repr

/-- The name of a kind. -/
def Kind.name : Kind → String
  | .notFound => "NotFound"
  | .permissionDenied => "PermissionDenied"
  | .alreadyExists => "AlreadyExists"
  | .wouldBlock => "WouldBlock"
  | .invalidInput => "InvalidInput"
  | .invalidData => "InvalidData"
  | .timedOut => "TimedOut"
  | .writeZero => "WriteZero"
  | .storageFull => "StorageFull"
  | .fileTooLarge => "FileTooLarge"
  | .interrupted => "Interrupted"
  | .unsupported => "Unsupported"
  | .unexpectedEof => "UnexpectedEof"
  | .outOfMemory => "OutOfMemory"
  | .brokenPipe => "BrokenPipe"
  | .isADirectory => "IsADirectory"
  | .readOnlyFilesystem => "ReadOnlyFilesystem"
  | .quotaExceeded => "QuotaExceeded"
  | .notSeekable => "NotSeekable"
  | .other => "Other"
  | .inputOutput => "InputOutputError"
  | .notADirectory => "NotADirectory"
  | .invalidFilename => "InvalidFilename"
  | .uncategorized => "Uncategorized"

/-- The text of a failure of which only the kind is known. -/
def Kind.text : Kind → String
  | .notFound => "entity not found"
  | .permissionDenied => "permission denied"
  | .alreadyExists => "entity already exists"
  | .wouldBlock => "operation would block"
  | .invalidInput => "invalid input parameter"
  | .invalidData => "invalid data"
  | .timedOut => "timed out"
  | .writeZero => "write zero"
  | .storageFull => "no storage space"
  | .fileTooLarge => "file too large"
  | .interrupted => "operation interrupted"
  | .unsupported => "unsupported"
  | .unexpectedEof => "unexpected end of file"
  | .outOfMemory => "out of memory"
  | .brokenPipe => "broken pipe"
  | .isADirectory => "is a directory"
  | .readOnlyFilesystem => "read-only filesystem or storage medium"
  | .quotaExceeded => "quota exceeded"
  | .notSeekable => "seek on unseekable file"
  | .other => "other error"
  | .inputOutput => "input/output error"
  | .notADirectory => "not a directory"
  | .invalidFilename => "invalid filename"
  | .uncategorized => "uncategorized error"

/-- The kinds that a caller may name.  The four that are missing arise from codes only. -/
def Kind.nameable : List Kind :=
  [.notFound, .permissionDenied, .alreadyExists, .wouldBlock, .invalidInput, .invalidData,
   .timedOut, .writeZero, .storageFull, .fileTooLarge, .interrupted, .unsupported,
   .unexpectedEof, .outOfMemory, .brokenPipe, .isADirectory, .readOnlyFilesystem,
   .quotaExceeded, .notSeekable, .other]

/-- The kind of a given name; a name that stands for none means `other`. -/
def Kind.ofName (name : String) : Kind :=
  (Kind.nameable.find? (·.name = name)).getD .other

/-- A code of the operating system: its kind and its text. -/
structure Code where
  kind : Kind
  text : String

/-- What the codes of the operating system mean. -/
def code (number : Nat) : Code :=
  match number with
  | 1 => ⟨.permissionDenied, "Operation not permitted"⟩
  | 2 => ⟨.notFound, "No such file or directory"⟩
  | 4 => ⟨.interrupted, "Interrupted system call"⟩
  | 5 => ⟨.inputOutput, "Input/output error"⟩
  | 9 => ⟨.uncategorized, "Bad file descriptor"⟩
  | 11 => ⟨.wouldBlock, "Resource temporarily unavailable"⟩
  | 13 => ⟨.permissionDenied, "Permission denied"⟩
  | 17 => ⟨.alreadyExists, "File exists"⟩
  | 20 => ⟨.notADirectory, "Not a directory"⟩
  | 21 => ⟨.isADirectory, "Is a directory"⟩
  | 22 => ⟨.invalidInput, "Invalid argument"⟩
  | 27 => ⟨.fileTooLarge, "File too large"⟩
  | 28 => ⟨.storageFull, "No space left on device"⟩
  | 29 => ⟨.notSeekable, "Illegal seek"⟩
  | 30 => ⟨.readOnlyFilesystem, "Read-only file system"⟩
  | 32 => ⟨.brokenPipe, "Broken pipe"⟩
  | 36 => ⟨.invalidFilename, "File name too long"⟩
  | 122 => ⟨.quotaExceeded, "Disk quota exceeded"⟩
  | n => ⟨.uncategorized, "Unknown error " ++ toString n⟩

end IoError

/-- A failure of a native file call. -/
inductive IoError where
  /-- A kind with a message of its own. -/
  | custom (kind : IoError.Kind) (message : String)
  /-- A kind and nothing more. -/
  | bare (kind : IoError.Kind)
  /-- A code of the operating system. -/
  | os (number : Nat)
deriving DecidableEq, Repr

namespace IoError

/-- The kind of a failure. -/
def kind : IoError → Kind
  | .custom kind _ => kind
  | .bare kind => kind
  | .os number => (code number).kind

/-- The text of a failure. -/
def message : IoError → String
  | .custom _ message => message
  | .bare kind => kind.text
  | .os number => (code number).text ++ " (os error " ++ toString number ++ ")"

/-- A call that was cut short by a signal: the one failure after which a transfer simply
    asks again. -/
def isInterrupted (e : IoError) : Bool := e.kind = .interrupted

/-- The path of a file to open holds a zero byte. -/
def nulInPath : IoError := .custom .invalidInput "data provided contains a nul byte"

/-- A position that a regular file cannot have. -/
def positionOutOfRange : IoError := .custom .invalidInput "file position out of range"

/-- Nothing has the name. -/
def missing : IoError := .os 2

/-- The file was not opened for this. -/
def badDescriptor : IoError := .os 9

/-- The mode of the file does not permit it. -/
def accessDenied : IoError := .os 13

/-- A name leads through something that is no directory. -/
def notADirectory : IoError := .os 20

/-- A directory stands where a file is wanted. -/
def isADirectory : IoError := .os 21

/-- The file does not know the call, or the range ends beyond all positions. -/
def invalid : IoError := .os 22

/-- The range begins beyond the largest file. -/
def tooLarge : IoError := .os 27

/-- The device has no room. -/
def noSpace : IoError := .os 28

/-- The name, or the whole path, has too many bytes. -/
def nameTooLong : IoError := .os 36

/-- A file that takes no byte of a write. -/
def wroteNothing : IoError := .custom .writeZero "failed to write entire buffer"

end IoError

end PinnedFile
