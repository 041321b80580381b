/-
  PinnedFile.World.Delivery

  How the outcome of an operation reaches the client.  The operation stops counting,
  then its handler or its stream is told, and last a close that waited for it is started.

  A failure goes to one place: to the handler of the operation; to the failure listener
  of the stream that asked for it; or, where there is neither, to the sink of the handle.
  A panic in what is called here ends the delivery at that point.
-/

import PinnedFile.World.Client

namespace PinnedFile

namespace Run

/-- Tells the sink of a handle about a failure that nobody listens for. -/
def tellSink (h : HandleId) (error : FileError) : Run Unit := do
  match (← get).handles[h]? with
  | none => pure ()
  | some s => note (.unheard h s.sink error)

/-- Calls the handler of an operation.  With the end of the call it holds nothing more,
    and the task holds the handle of the operation only. -/
def callHandler (job : Job) (handler : Handler) (result : Except FileError Bytes) :
    Run Unit := do
  note (.handled job.id job.completion.operation handler.tag result)
  runAll (result.toOption.getD []) handler.body
  modify fun w => { w with held := [job.handle] }.sweep

/-- Hands the result of an operation to its handler, or a failure to the sink if there is
    no handler. -/
def callHandlerOrSink (job : Job) (handler : Option Handler)
    (result : Except FileError Bytes) : Run Unit :=
  match handler, result with
  | some handler, result => callHandler job handler result
  | none, .error e => tellSink job.handle e
  | none, .ok _ => pure ()

/-! ## Streams -/

/-- Tells a read stream's failure to its listener, or to the sink. -/
def tellReadFailure (h : HandleId) (error : FileError) : Run Unit := do
  match (← get).reader? h >>= Reader.failure with
  | none => tellSink h (.unhandled error)
  | some r =>
    modify (·.modifyReader h ({ · with failure := some r.called }))
    note (.failed h r.listener.tag error)
    holding r.holds (runAll [] r.body)

/-- Tells a write stream's failure to its listener, or to the sink. -/
def tellWriteFailure (h : HandleId) (error : FileError) : Run Unit := do
  match (← get).writer? h >>= Writer.failure with
  | none => tellSink h (.unhandled error)
  | some r =>
    modify (·.modifyWriter h ({ · with failure := some r.called }))
    note (.failed h r.listener.tag error)
    holding r.holds (runAll [] r.body)

/-- Tells the end of a read stream to its listener. -/
def tellEnd (h : HandleId) : Run Unit := do
  match (← get).reader? h >>= Reader.ending with
  | none => pure ()
  | some r =>
    modify (·.modifyReader h ({ · with ending := some r.called }))
    note (.ended h r.listener.tag)
    holding r.holds (runAll [] r.body)

/-- Hands a chunk to the data listener. -/
def tellData (h : HandleId) (chunk : Bytes) : Run Unit := do
  match (← get).reader? h >>= Reader.data with
  | none => pure ()
  | some r =>
    modify (·.modifyReader h ({ · with data := some r.called }))
    note (.data h r.listener.tag chunk)
    holding r.holds (runAll chunk r.body)

/-- Calls the drain callback, if the queue of the write stream has drained. -/
def tellDrained (h : HandleId) : Run Unit := do
  let w ← get
  match w.writer? h >>= Writer.drain with
  | none => pure ()
  | some ⟨id, handler⟩ =>
    if w.hasDrained h then
      modify (·.clearDrain h)
      note (.drained h id handler.tag)
      holding handler.holds (runAll [] handler.body)

/-- A read stream's read has come to an end.  Nothing read means the end of the file; a
    chunk moves the position on. -/
def finishChunk (h : HandleId) (outcome : Outcome) : Run Unit := do
  modify (·.modifyReader h ({ · with busy := false }))
  match outcome with
  | .error e => tellReadFailure h (.native .read e)
  -- a read asks for at least one byte, so none means that there are no more
  | .ok [] =>
    modify (·.modifyReader h ({ · with ended := true }))
    tellEnd h
  | .ok chunk =>
    modify (·.modifyReader h fun s => { s with position := s.position + chunk.length })
    tellData h chunk

/-- After a chunk, the next read of a read stream is started if it is wanted. -/
def readOn (job : Job) (outcome : Outcome) : Run Unit := do
  match job.completion, outcome with
  | .chunk, .ok (_ :: _) => if (← get).wantsRead job.handle then startRead job.handle
  | _, _ => pure ()

/-- A write stream's write has come to an end. -/
def finishSend (h : HandleId) (outcome : Outcome) : Run Unit := do
  match outcome with
  | .error e => tellWriteFailure h (.native .write e)
  | .ok _ => pure ()
  tellDrained h

/-! ## Operations -/

/-- The result of an operation that has nothing to tell but its success. -/
def plainResult (operation : Operation) : Outcome → Except FileError Bytes
  | .ok _ => .ok []
  | .error e => .error (.native operation e)

/-- The result of a read into `target` at `offset`.  A read that found nothing leaves the
    target as it was. -/
def readResult (target : Bytes) (offset : Nat) : Outcome → Except FileError Bytes
  | .ok [] => .ok target
  | .ok bytes => (Buffer.setBytes ⟨target⟩ offset bytes).map Buffer.bytes
  | .error e => .error (.native .read e)

/-- Starts the close that waited for the last operation of a handle. -/
def closeIfQuiet (h : HandleId) : Run Unit := do
  match (← get).handles[h]? with
  | none => pure ()
  | some s =>
    if s.closed && s.isQuiet then
      match s.pendingClose with
      | none => pure ()
      -- it is taken off the handle as it is queued, so it is queued once
      | some job => modify fun w =>
        (w.modifyHandle h ({ · with pendingClose := none })).submit job

/-- Tells the client of the outcome of an operation: its handler, or the listeners of the
    stream that asked for it. -/
def tell (job : Job) (outcome : Outcome) : Run Unit :=
  match job.completion with
  | .write _ handler => callHandler job handler (plainResult .write outcome)
  | .send _ => finishSend job.handle outcome
  | .read target offset handler => callHandler job handler (readResult target offset outcome)
  | .chunk => finishChunk job.handle outcome
  | .flush handler => callHandlerOrSink job handler (plainResult .flush outcome)
  | .close handler => do
    -- the registrations go even if the native close has failed
    modify (·.modifyHandle job.handle Handle.unregistered)
    callHandlerOrSink job handler (plainResult .close outcome)

/-- The part of a delivery in which callbacks are called: the operation stops counting, and
    the client is told. -/
def announce (job : Job) (outcome : Outcome) : Run Unit := do
  -- callbacks find the counters as they are without this operation
  modify (·.modifyHandle job.handle (·.releasing job.completion))
  note (.completed job outcome)
  tell job outcome
  note (.delivered job.id)

/-- Delivers the outcome of an operation.  It is bound to the context of its handle, and is
    dropped on any other. -/
def deliver (job : Job) (outcome : Outcome) : Run Unit := do
  match (← get).unbind job.handle with
  | .error _ => pure ()
  | .ok () =>
    announce job outcome
    readOn job outcome
    closeIfQuiet job.handle

end Run

end PinnedFile
