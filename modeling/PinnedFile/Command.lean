/-
  PinnedFile.Command

  What a client does, as data: the calls on handles and streams, and the handlers that
  make further calls when something completes.  Clients name handles and streams by the
  numbered slots that hold them.

  A handler is known by its tag.  A `Callback` is called once; a `Listener` is called
  again and again, and what it does may depend on how often it was called before.  A
  handler can keep handles from being given up for as long as it is kept itself.
-/

import PinnedFile.Memory
import PinnedFile.OpenOptions

namespace PinnedFile

/-- The number of a slot. -/
abbrev Slot := Nat

/-- A handler that is called at most once. -/
structure Callback (α : Type) where
  tag : String
  /-- What it does, in order. -/
  body : List α
  /-- The slots whose handles it keeps. -/
  keeps : List Slot := []
deriving Repr, Inhabited

/-- A handler that is called any number of times. -/
structure Listener (α : Type) where
  tag : String
  /-- What it does on its first calls, one list for each. -/
  calls : List (List α)
  /-- What it does on every call, after that. -/
  each : List α
  /-- The slots whose handles it keeps. -/
  keeps : List Slot := []
deriving Repr, Inhabited

/-- What a listener does on a call, `earlier` counting the calls before. -/
def Listener.bodyAt {α : Type} (l : Listener α) (earlier : Nat) : List α :=
  l.calls.getD earlier [] ++ l.each

/-- The bytes that a call is made with. -/
inductive Payload where
  | bytes (b : Bytes)
  /-- Those that the handler making the call received. -/
  | received
deriving DecidableEq, Repr

/-- The bytes that a payload stands for in a handler that received `received`. -/
def Payload.resolve (received : Bytes) : Payload → Bytes
  | .bytes b => b
  | .received => received

/-- Where a handle's unheard failures are told. -/
inductive Sink where
  /-- To a recorder, known by its number. -/
  | recorder (number : Nat)
  /-- To the log. -/
  | log
deriving DecidableEq, Repr

/-- What is opened. -/
inductive Source where
  /-- A new memory file. -/
  | memory (data : Payload) (max : Option Nat) (directives : Directives)
  /-- The memory file of a slot. -/
  | shared (slot : Slot)
  /-- The file at a path. -/
  | path (bytes : Bytes)
deriving DecidableEq, Repr

/-- From where the loop and the workers are shut down. -/
inductive Origin where
  | outside
  /-- From a task. -/
  | loop
  /-- From a job. -/
  | worker
deriving DecidableEq, Repr

/-- One call of a client. -/
inductive Command where
  /-- Opens a file into a slot, which is replaced as a whole. -/
  | openFile (slot : Slot) (options : OpenOptions) (sink : Sink) (source : Source)
  /-- Puts a second reference to the handle of `slot` into the slot `target`. -/
  | clone (slot target : Slot)
  /-- Gives up the reference of a slot. -/
  | drop (slot : Slot)
  | write (slot : Slot) (data : Payload) (position : Nat) (handler : Callback Command)
  | read (slot : Slot) (target : Payload) (offset position length : Nat)
      (handler : Callback Command)
  | flush (slot : Slot) (handler : Option (Callback Command))
  | close (slot : Slot) (handler : Option (Callback Command))
  /-- Puts the read stream of a slot's handle into the slot. -/
  | readStream (slot : Slot)
  /-- Puts the write stream of a slot's handle into the slot. -/
  | writeStream (slot : Slot)
  | describe (slot : Slot)
  | path (slot : Slot)
  /-- Registers a listener for the chunks that a read stream reads. -/
  | onData (slot : Slot) (listener : Listener Command)
  /-- Registers a listener for the end of a read stream. -/
  | onEnd (slot : Slot) (listener : Listener Command)
  /-- Registers a listener for the failures of a read stream. -/
  | onReadFailure (slot : Slot) (listener : Listener Command)
  /-- Removes the listener for chunks. -/
  | clearData (slot : Slot)
  | pause (slot : Slot)
  | resume (slot : Slot)
  /-- Pauses and, if that is accepted, resumes. -/
  | pauseResume (slot : Slot)
  | setChunkSize (slot : Slot) (size : Nat)
  /-- Puts the handle of a slot's read stream into the slot `target`. -/
  | readerHandle (slot target : Slot)
  /-- Writes to a write stream. -/
  | send (slot : Slot) (data : Payload)
  /-- Writes to a write stream and, if that is accepted, writes the same once more. -/
  | sendTwice (slot : Slot) (data : Payload)
  | queueFull (slot : Slot)
  /-- Goes on by whether the queue of a write stream is full. -/
  | ifQueueFull (slot : Slot) (yes no : List Command)
  | setQueueMax (slot : Slot) (size : Nat)
  /-- Registers a callback for the moment when the queue of a write stream has drained. -/
  | onDrain (slot : Slot) (handler : Callback Command)
  /-- Registers a listener for the failures of a write stream. -/
  | onWriteFailure (slot : Slot) (listener : Listener Command)
  /-- Puts the handle of a slot's write stream into the slot `target`. -/
  | writerHandle (slot target : Slot)
  /-- Has a task run on a context.  A task cannot keep handles. -/
  | execute (context : Nat) (task : Callback Command)
  /-- Asks for the current context. -/
  | currentContext
  /-- Asks for the texts of the current context. -/
  | contextTexts
  /-- Asks for the bytes of a slot's memory file. -/
  | contents (slot : Slot)
  /-- Asks whether any handle still refers to a slot's memory file. -/
  | held (slot : Slot)
  /-- Changes a slot's memory file from outside. -/
  | adjust (slot : Slot) (data : Option Payload) (max : Option (Option Nat))
      (directives : Redirection)
  /-- Runs a command and panics if it is refused; `what` begins the text of the panic. -/
  | require (what : String) (c : Command)
  /-- The moment at which the loop and the workers are shut down, by this task or by
      somebody else. -/
  | shutDown (origin : Origin)
  /-- Panics, with or without a text. -/
  | panic (message : Option String)
deriving Repr, Inhabited

end PinnedFile
