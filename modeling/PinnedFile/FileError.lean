/-
  PinnedFile.FileError

  Everything an operation on a file can be refused or fail for.  Misuse of a handle is
  told to the caller at once; failures of the native file arrive with the completion of
  the operation that met them, and those that nobody listens for are wrapped as
  `unhandled` for the diagnostic sink.
-/

import PinnedFile.Bytes
import PinnedFile.IoError
import PinnedFile.Text.Utf8

namespace PinnedFile

/-- The identity of an execution context. -/
structure ContextId where
  number : Nat
deriving DecidableEq, Repr

namespace ContextId

/-- A context as its name, `label` naming contexts. -/
def name (label : ContextId → String) (id : ContextId) : String := "ctx-" ++ label id

/-- The identity as one line of text. -/
def describe (label : ContextId → String) (id : ContextId) : String :=
  "ContextId(" ++ label id ++ ")"

/-- The context's name, its identity, and the context as one line of text. -/
def texts (label : ContextId → String) (id : ContextId) : List String :=
  [id.name label, id.describe label, "Context \x7b id: " ++ id.describe label ++ " \x7d"]

end ContextId

/-- The native operations a failure can belong to. -/
inductive Operation where
  | read | write | flush | close
deriving DecidableEq, Repr

/-- The name of an operation. -/
def Operation.name : Operation → String
  | .read => "read"
  | .write => "write"
  | .flush => "flush"
  | .close => "close"

/-- An argument that no call can be made with. -/
inductive Misuse where
  /-- A file opened for neither reading nor writing. -/
  | noAccess
  /-- A read buffer that holds nothing. -/
  | emptyReadBuffer
  /-- Permissions that are not nine bytes long. -/
  | permissionLength (text : String)
  /-- Permissions with a byte that does not belong at its index. -/
  | permissionLetter (text : String) (letter : UInt8) (index : Nat)
  /-- Data placed beyond the largest buffer. -/
  | placement (count offset : Nat)
  /-- A read into a range beyond the largest buffer. -/
  | readRange (count offset : Nat)
  /-- Any other reason. -/
  | other (reason : String)
deriving DecidableEq, Repr, Inhabited

/-- What is wrong with the argument. -/
def Misuse.reason : Misuse → String
  | .noAccess => "cannot open file for neither reading nor writing"
  | .emptyReadBuffer => "read buffer size must be > 0"
  | .permissionLength text =>
    "invalid permission string " ++ Text.quoteString text ++ ": expected 9 characters"
  | .permissionLetter text letter index =>
    "invalid permission string " ++ Text.quoteString text ++ ": unexpected "
      ++ Text.quoteChar (Char.ofNat letter.toNat) ++ " at " ++ toString index
  | .placement count offset =>
    "cannot place " ++ toString count ++ " bytes at offset " ++ toString offset
  | .readRange count offset =>
    "read of " ++ toString count ++ " bytes at buffer offset " ++ toString offset
      ++ " is out of range"
  | .other reason => reason

/-- Why an operation was refused or failed. -/
inductive FileError where
  /-- An argument that no call can be made with. -/
  | invalidArgument (misuse : Misuse)
  /-- The file could not be opened. -/
  | openFailure (path : Bytes) (source : IoError)
  /-- The handle is closed, or gone. -/
  | closed
  /-- The caller is not on the context that owns the handle. -/
  | wrongContext (expected actual : Option ContextId)
  /-- A native operation failed. -/
  | native (operation : Operation) (source : IoError)
  /-- A failure of a stream that had no handler for it. -/
  | unhandled (inner : FileError)
deriving DecidableEq, Repr, Inhabited

namespace FileError

/-- An optional context as a message shows it, `label` naming contexts. -/
def contextText (label : ContextId → String) : Option ContextId → String
  | none => "None"
  | some id => "Some(" ++ id.describe label ++ ")"

/-- The text of an error, `label` naming contexts. -/
def message (label : ContextId → String) : FileError → String
  | .invalidArgument misuse => "invalid argument: " ++ misuse.reason
  | .openFailure path source =>
    "failed to open " ++ Text.lossy path ++ ": " ++ source.message
  | .closed => "file handle is closed"
  | .wrongContext expected actual =>
    "file handle must only be used on the context that created it (expected "
      ++ contextText label expected ++ ", actual " ++ contextText label actual ++ ")"
  | .native operation source => operation.name ++ " failed: " ++ source.message
  | .unhandled inner => "unhandled stream failure: " ++ inner.message label

/-- The kind of the native failure behind an error, if there is one. -/
def kind? : FileError → Option IoError.Kind
  | .openFailure _ source => some source.kind
  | .native _ source => some source.kind
  | .unhandled inner => inner.kind?
  | _ => none

/-- The texts of the errors that caused this one, the nearest first. -/
def causes (label : ContextId → String) : FileError → List String
  | .openFailure _ source => [source.message]
  | .native _ source => [source.message]
  | .unhandled inner => inner.message label :: inner.causes label
  | _ => []

/-- An unhandled failure keeps the kind of the failure inside it. -/
@[simp] theorem kind?_unhandled (inner : FileError) : (unhandled inner).kind? = inner.kind? :=
  rfl

end FileError

end PinnedFile
