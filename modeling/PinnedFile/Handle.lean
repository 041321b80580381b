/-
  PinnedFile.Handle

  The state of a file handle and of its two streams.

  A handle counts what was accepted on it and is not delivered yet: the bytes of writes
  in `outstanding`, the reads and flushes in `inFlight`.  A close that finds either of
  them above zero waits as `pendingClose` for the last delivery.
-/

import PinnedFile.Command
import PinnedFile.Transfer

namespace PinnedFile

/-- The number of a handle. -/
abbrev HandleId := Nat

/-- The number of a backend. -/
abbrev BackendId := Nat

/-- The number of an accepted operation. -/
abbrev OperationId := Nat

/-- A callback that waits to be called, and the handles that it holds. -/
structure Handler where
  tag : String
  body : List Command
  holds : List HandleId := []
deriving Repr

/-- What becomes of the outcome of an operation. -/
inductive Completion where
  | write (length : Nat) (handler : Handler)
  /-- A write to the write stream. -/
  | send (length : Nat)
  /-- A read into `target` at `offset`. -/
  | read (target : Bytes) (offset : Nat) (handler : Handler)
  /-- A read of the read stream. -/
  | chunk
  | flush (handler : Option Handler)
  | close (handler : Option Handler)
deriving Repr

namespace Completion

/-- The native operation whose outcome is completed. -/
def operation : Completion → Operation
  | .write .. | .send _ => .write
  | .read .. | .chunk => .read
  | .flush _ => .flush
  | .close _ => .close

/-- The bytes that count as outstanding until the completion is delivered. -/
def outstanding : Completion → Nat
  | .write length _ | .send length => length
  | _ => 0

/-- The operations that count as in flight until the completion is delivered. -/
def inFlight : Completion → Nat
  | .read .. | .chunk | .flush _ => 1
  | _ => 0

/-- The handles that the handler of an operation holds. -/
def holds : Completion → List HandleId
  | .write _ handler | .read _ _ handler => handler.holds
  | .flush handler | .close handler => (handler.map Handler.holds).getD []
  | .send _ | .chunk => []

end Completion

/-- An accepted operation. -/
structure Job where
  id : OperationId
  handle : HandleId
  /-- Its native work, as far as it has come. -/
  transfer : Transfer
  completion : Completion
deriving Repr

/-- The handles that an accepted operation holds: its own, and those of its handler. -/
def Job.holds (job : Job) : List HandleId := job.handle :: job.completion.holds

/-- A registered listener, and the handles that it holds. -/
structure Registration where
  listener : Listener Command
  holds : List HandleId := []
  /-- How often it was called. -/
  calls : Nat := 0
deriving Repr

namespace Registration

/-- A registration that was called once more. -/
def called (r : Registration) : Registration := { r with calls := r.calls + 1 }

/-- What its listener does on the next call. -/
def body (r : Registration) : List Command := r.listener.bodyAt r.calls

end Registration

/-- The handles that a registration holds, if there is one. -/
def registrationHolds (r : Option Registration) : List HandleId :=
  (r.map Registration.holds).getD []

/-- A call on a read stream that bears on its reading. -/
inductive ReaderCall where
  /-- A listener for chunks is registered, while the stream is paused or not. -/
  | listen (paused : Bool)
  | clear
  | pause
  /-- A pause is ended, if the stream is paused. -/
  | resume (paused : Bool)
  /-- The next reads are to ask for so many bytes. -/
  | resize (size : Nat)
deriving DecidableEq, Repr

/-- The state of a read stream. -/
structure Reader where
  /-- The number of bytes read so far. -/
  position : Nat := 0
  /-- The number of bytes that the next read asks for. -/
  chunkSize : Nat
  paused : Bool := false
  /-- A read is under way. -/
  busy : Bool := false
  ended : Bool := false
  data : Option Registration := none
  failure : Option Registration := none
  ending : Option Registration := none
  /-- The calls that were made on it, the latest first.  Like the history it is a record only:
      nothing depends on it. -/
  asked : List ReaderCall := []
  /-- All that listeners registered at it have ever held, a record as well. -/
  captured : List HandleId := []
deriving Repr

namespace Reader

/-- A read stream with one more call in its record. -/
def noting (r : Reader) (call : ReaderCall) : Reader := { r with asked := call :: r.asked }

/-- A read stream with what one more listener holds in its record. -/
def capturing (r : Reader) (listener : Registration) : Reader :=
  { r with captured := listener.holds ++ r.captured }

/-- A read stream with a listener for chunks. -/
def listening (r : Reader) (listener : Registration) : Reader :=
  { (r.noting (.listen r.paused)).capturing listener with data := some listener }

/-- A read stream with a listener for its end. -/
def listeningForEnd (r : Reader) (listener : Registration) : Reader :=
  { r.capturing listener with ending := some listener }

/-- A read stream with a listener for its failures. -/
def listeningForFailure (r : Reader) (listener : Registration) : Reader :=
  { r.capturing listener with failure := some listener }

/-- A read stream that is not paused any more. -/
def resumed (r : Reader) : Reader := { r.noting (.resume r.paused) with paused := false }

/-- A read stream without its registrations. -/
def unregistered (r : Reader) : Reader :=
  { r with data := none, failure := none, ending := none }

/-- The handles that the registrations of a read stream hold. -/
def holds (r : Reader) : List HandleId :=
  registrationHolds r.data ++ registrationHolds r.failure ++ registrationHolds r.ending

end Reader

/-- A callback that waits for a write queue to drain. -/
structure DrainWait where
  /-- Its number among all that have ever waited. -/
  id : Nat
  handler : Handler
deriving Repr

/-- The state of a write stream. -/
structure Writer where
  /-- The number of bytes accepted so far. -/
  position : Nat := 0
  /-- The queue is full from so many outstanding bytes on. -/
  highwater : Nat
  /-- The queue has drained at so many outstanding bytes or less. -/
  lowwater : Nat
  drain : Option DrainWait := none
  failure : Option Registration := none
  /-- All that callbacks and listeners registered at it have ever held, a record only. -/
  captured : List HandleId := []
deriving Repr

namespace Writer

/-- A write stream with both marks set by the size of its queue: it has drained when at
    most half of it is outstanding. -/
def withQueueMax (w : Writer) (size : Nat) : Writer :=
  { w with highwater := size, lowwater := size / 2 }

/-- A write stream nothing was written to. -/
def ofQueueMax (size : Nat) : Writer := { highwater := size, lowwater := size / 2 }

/-- A write stream with a callback that waits for its queue to drain. -/
def awaiting (w : Writer) (wait : DrainWait) : Writer :=
  { w with drain := some wait, captured := wait.handler.holds ++ w.captured }

/-- A write stream with a listener for its failures. -/
def listeningForFailure (w : Writer) (listener : Registration) : Writer :=
  { w with failure := some listener, captured := listener.holds ++ w.captured }

/-- A write stream without its registrations. -/
def unregistered (w : Writer) : Writer := { w with drain := none, failure := none }

/-- The handles that the registrations of a write stream hold. -/
def holds (w : Writer) : List HandleId :=
  (w.drain.map fun wait => wait.handler.holds).getD [] ++ registrationHolds w.failure

end Writer

/-- The streams of a handle. -/
inductive StreamKind where
  | read | write
deriving DecidableEq, Repr

/-- The state of a handle. -/
structure Handle where
  /-- The one context that may use it. -/
  owner : ContextId
  backend : BackendId
  sink : Sink
  /-- The path it was opened with; none for memory files. -/
  path : Bytes
  /-- What its read stream starts with. -/
  readChunk : Nat
  /-- What its write stream starts with. -/
  queueMax : Nat
  closed : Bool := false
  outstanding : Nat := 0
  inFlight : Nat := 0
  pendingClose : Option Job := none
  reader : Option Reader := none
  writer : Option Writer := none
deriving Repr

namespace Handle

/-- Everything accepted was delivered, so that the native file can be closed. -/
def isQuiet (s : Handle) : Bool := s.outstanding = 0 && s.inFlight = 0

/-- A handle that has accepted an operation. -/
def taking (s : Handle) (c : Completion) : Handle :=
  { s with outstanding := s.outstanding + c.outstanding, inFlight := s.inFlight + c.inFlight }

/-- A handle that has an operation delivered. -/
def releasing (s : Handle) (c : Completion) : Handle :=
  { s with outstanding := s.outstanding - c.outstanding, inFlight := s.inFlight - c.inFlight }

/-- A handle whose streams have no registrations. -/
def unregistered (s : Handle) : Handle :=
  { s with reader := s.reader.map Reader.unregistered, writer := s.writer.map Writer.unregistered }

/-- The handles that the registrations of one of its streams hold. -/
def streamHolds (s : Handle) : StreamKind → List HandleId
  | .read => (s.reader.map Reader.holds).getD []
  | .write => (s.writer.map Writer.holds).getD []

/-- The handles that a handle holds: by the registrations of its streams, and, for a close
    that waits, itself. -/
def holds (s : Handle) : List HandleId :=
  s.streamHolds .read ++ s.streamHolds .write ++ (s.pendingClose.map Job.holds).getD []

/-- The handle as one line of text, `label` naming contexts. -/
def describe (label : ContextId → String) (s : Handle) : String :=
  "AsyncFile \x7b path: " ++ Text.quotePath s.path
    ++ ", context: " ++ s.owner.describe label
    ++ ", closed: " ++ Text.flag s.closed
    ++ ", outstanding_write_bytes: " ++ toString s.outstanding ++ " \x7d"

end Handle

end PinnedFile
