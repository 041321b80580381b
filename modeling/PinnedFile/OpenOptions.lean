/-
  PinnedFile.OpenOptions

  How a file is to be opened: access, creation, and the sizes its streams start with.

  `validate` holds the checks that both ways of opening make first.  Opening a path
  checks the permission string as well, after the context; opening a backend that is
  there already has no use for permissions and never looks at them.
-/

import PinnedFile.Permissions

namespace PinnedFile

/-- How a file is to be opened. -/
structure OpenOptions where
  read : Bool := false
  write : Bool := false
  create : Bool := false
  /-- Every write reaches the device before it is reported. -/
  syncOnWrite : Bool := false
  perms : Option String := none
  /-- The number of bytes a read stream asks for at a time. -/
  readBufferSize : Nat := 8192
  /-- The number of outstanding bytes from which on a write stream counts as full. -/
  writeQueueMaxSize : Nat := 128 * 1024
deriving DecidableEq, Repr

namespace OpenOptions

/-- The mode of a created file whose options name none. -/
def defaultMode : Nat := 0o666

/-- The checks made before anything else. -/
def validate (o : OpenOptions) : Except FileError Unit :=
  if !o.read && !o.write then .error (.invalidArgument .noAccess)
  else if o.readBufferSize = 0 then .error (.invalidArgument .emptyReadBuffer)
  else .ok ()

/-- The context that a file opened now will belong to: the current one, if the options
    pass and there is one. -/
def owner (o : OpenOptions) (current : Option ContextId) : Except FileError ContextId :=
  match o.validate with
  | .error e => .error e
  | .ok () =>
    match current with
    | none => .error (.wrongContext none none)
    | some context => .ok context

/-- The mode a created file asks for. -/
def mode (o : OpenOptions) : Except FileError Nat :=
  match o.perms with
  | none => .ok defaultMode
  | some text =>
    match Permissions.parse text with
    | .ok mode => .ok mode
    | .error misuse => .error (.invalidArgument misuse)

/-- The options as one line of text. -/
def describe (o : OpenOptions) : String :=
  "OpenOptions \x7b read: " ++ Text.flag o.read
    ++ ", write: " ++ Text.flag o.write
    ++ ", create: " ++ Text.flag o.create
    ++ ", sync_on_write: " ++ Text.flag o.syncOnWrite
    ++ ", perms: " ++ (match o.perms with
        | none => "None"
        | some text => "Some(" ++ Text.quoteString text ++ ")")
    ++ ", read_buffer_size: " ++ toString o.readBufferSize
    ++ ", write_queue_max_size: " ++ toString o.writeQueueMaxSize
    ++ ", .. \x7d"

end OpenOptions

end PinnedFile
