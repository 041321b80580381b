/-
  PinnedFile.World.History

  What can happen in a run, and what calls are answered.  A run keeps all its events,
  each with the state that the handles had at that moment, so that what must hold when
  something happens can be read off the history.
-/

import PinnedFile.Handle

namespace PinnedFile

/-- What a call needs and does not find in its slot. -/
inductive Missing where
  | file | readStream | writeStream | native | context
deriving DecidableEq, Repr

/-- What a call is answered. -/
inductive Reply where
  | result (r : Except FileError Unit)
  | missing (what : Missing)
  | flag (b : Bool)
  | bytes (b : Bytes)
  | path (b : Bytes)
  | handle (s : Handle)
  | context (id : Option ContextId)
  | contextTexts (id : Option ContextId)
deriving Repr

/-- What can happen in a run. -/
inductive Event where
  | accepted (job : Job)
  /-- An accepted operation is put behind those that wait for a worker. -/
  | submitted (job : OperationId)
  /-- A worker takes an operation. -/
  | taken (job : OperationId)
  /-- A native call has returned, or panicked. -/
  | native (job : OperationId) (handle : HandleId) (call : Call) (answer : Answer)
  /-- The outcome of an operation has reached the loop. -/
  | completed (job : Job) (outcome : Outcome)
  /-- The handler of an operation is called. -/
  | handled (job : OperationId) (operation : Operation) (tag : String)
      (result : Except FileError Bytes)
  /-- The handler of an operation, if it has one, has returned. -/
  | delivered (job : OperationId)
  | data (handle : HandleId) (tag : String) (chunk : Bytes)
  | ended (handle : HandleId) (tag : String)
  /-- The failure listener of a stream is called. -/
  | failed (handle : HandleId) (tag : String) (error : FileError)
  /-- A callback begins to wait for a write queue to drain. -/
  | awaited (handle : HandleId) (wait : Nat)
  /-- The callback that waits for a write queue to drain is called. -/
  | drained (handle : HandleId) (wait : Nat) (tag : String)
  /-- A failure for which there is no handler is told to the sink. -/
  | unheard (handle : HandleId) (sink : Sink) (error : FileError)
  /-- A call made by a handler has ended. -/
  | ran (command : Command) (reply : Reply)
  | started (tag : String)
  | later
  | shutDown
  | panicking
deriving Repr

/-- An event, with the context it happened on and the handles as they were. -/
structure Entry where
  context : Option ContextId
  event : Event
  handles : List Handle
deriving Repr

end PinnedFile
