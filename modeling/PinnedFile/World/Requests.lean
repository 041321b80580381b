/-
  PinnedFile.World.Requests

  The requests that a client makes of a handle: write, read, flush and close, and the
  streams' own.  A request is refused, with a reason and without a trace, or accepted,
  and then its native work is queued for the workers.

  Reasons are found in this order: the handle is gone, the caller is on another context,
  the handle is closed, an argument is no good.
-/

import PinnedFile.World

namespace PinnedFile.World

/-- Refuses what is done on another context than that of a handle. -/
def guard (w : World) (s : Handle) : Except FileError Unit :=
  if w.context = some s.owner then .ok ()
  else .error (.wrongContext (some s.owner) w.context)

/-- The state of a handle that accepts requests made now. -/
def check (w : World) (h : HandleId) : Except FileError Handle :=
  match w.handles[h]? with
  | none => .error .closed
  | some s => (w.guard s).bind fun _ => if s.closed then .error .closed else .ok s

/-- Takes back what was bound to the context of a handle. -/
def unbind (w : World) (h : HandleId) : Except FileError Unit :=
  match w.handles[h]? with
  | none => .error (.wrongContext none w.context)
  | some s => w.guard s

/-- The state of a handle whose stream accepts requests made now. -/
def checkStream (w : World) (h : HandleId) : Except FileError Handle :=
  if w.isLive h then w.check h else .error .closed

/-- A world with one more operation accepted, which counts from now on. -/
def accept (w : World) (h : HandleId) (transfer : Transfer) (completion : Completion) :
    Job × World :=
  let job := ⟨w.nextOperation, h, transfer, completion⟩
  -- it counts before anything is done about it
  let w := (w.modifyHandle h (·.taking completion)).record (.accepted job)
  (job, { w with nextOperation := w.nextOperation + 1 })

/-- A world with one more operation accepted, its native work queued. -/
def enqueue (w : World) (h : HandleId) (transfer : Transfer) (completion : Completion) : World :=
  let (job, w) := w.accept h transfer completion
  w.submit job

/-! ## Requests of a handle -/

/-- Writes `data` at `position`. -/
def write (w : World) (h : HandleId) (data : Bytes) (position : Nat)
    (handler : Callback Command) : Except FileError World :=
  (w.check h).map fun _ =>
    w.enqueue h (.ofWrite data position) (.write data.length (w.handler handler))

/-- Reads `length` bytes at `position` into `target` at `offset`. -/
def read (w : World) (h : HandleId) (target : Bytes) (offset position length : Nat)
    (handler : Callback Command) : Except FileError World :=
  match w.check h with
  | .error e => .error e
  | .ok _ =>
    if Buffer.fits length offset then
      .ok (w.enqueue h (.ofRead position length) (.read target offset (w.handler handler)))
    else .error (.invalidArgument (.readRange length offset))

/-- Has written data reach the device. -/
def flush (w : World) (h : HandleId) (handler : Option (Callback Command)) :
    Except FileError World :=
  (w.check h).map fun _ => w.enqueue h .sync (.flush (handler.map w.handler))

/-- Closes a handle.  Its native file is closed once everything accepted was delivered. -/
def close (w : World) (h : HandleId) (handler : Option (Callback Command)) :
    Except FileError World :=
  (w.check h).map fun s =>
    let (job, w) := w.accept h .close (.close (handler.map w.handler))
    let w := w.modifyHandle h fun s => { s with closed := true }
    -- the handle as it was before: the close itself counts for nothing
    if s.isQuiet then w.submit job
    else w.modifyHandle h fun s => { s with pendingClose := some job }

/-! ## Getting the streams of a handle -/

/-- The read stream of a handle, made at the first request. -/
def readStream (w : World) (h : HandleId) : Except FileError World :=
  (w.check h).map fun s =>
    w.modifyHandle h ({ · with reader := some (s.reader.getD { chunkSize := s.readChunk }) })

/-- The write stream of a handle, made at the first request. -/
def writeStream (w : World) (h : HandleId) : Except FileError World :=
  (w.check h).map fun s =>
    w.modifyHandle h ({ · with writer := some (s.writer.getD (.ofQueueMax s.queueMax)) })

/-! ## Requests of a read stream -/

/-- Registers a listener for chunks. -/
def onData (w : World) (h : HandleId) (listener : Listener Command) : Except FileError World :=
  (w.checkStream h).map fun _ =>
    w.modifyReader h (·.listening (w.registration listener))

/-- Removes the listener for chunks. -/
def clearData (w : World) (h : HandleId) : Except FileError World :=
  (w.checkStream h).map fun _ => w.modifyReader h fun r => { r.noting .clear with data := none }

/-- Registers a listener for the end. -/
def onEnd (w : World) (h : HandleId) (listener : Listener Command) : Except FileError World :=
  (w.checkStream h).map fun _ =>
    w.modifyReader h (·.listeningForEnd (w.registration listener))

/-- Registers a listener for the failures of a read stream. -/
def onReadFailure (w : World) (h : HandleId) (listener : Listener Command) :
    Except FileError World :=
  (w.checkStream h).map fun _ =>
    w.modifyReader h (·.listeningForFailure (w.registration listener))

/-- Has no further read started. -/
def pause (w : World) (h : HandleId) : Except FileError World :=
  (w.checkStream h).map fun _ => w.modifyReader h fun r => { r.noting .pause with paused := true }

/-- Ends a pause. -/
def resume (w : World) (h : HandleId) : Except FileError World :=
  (w.checkStream h).map fun _ => w.modifyReader h Reader.resumed

/-- Sets the number of bytes that the next read asks for. -/
def setChunkSize (w : World) (h : HandleId) (size : Nat) : Except FileError World :=
  match w.checkStream h with
  | .error e => .error e
  | .ok _ =>
    if size = 0 then .error (.invalidArgument .emptyReadBuffer)
    else .ok (w.modifyReader h fun r => { r.noting (.resize size) with chunkSize := size })

/-! ## Requests of a write stream -/

/-- Writes `data` behind all that was written to the stream before. -/
def send (w : World) (h : HandleId) (data : Bytes) : Except FileError World :=
  (w.checkStream h).map fun s =>
    let position := (s.writer.map Writer.position).getD 0
    -- the position moves on with the request, whatever becomes of it
    let w := w.enqueue h (.ofWrite data position) (.send data.length)
    w.modifyWriter h fun s => { s with position := s.position + data.length }

/-- Whether so much is outstanding that a client should wait. -/
def queueFull (w : World) (h : HandleId) : Except FileError Bool :=
  (w.checkStream h).map fun s => s.writer.any fun stream => s.outstanding ≥ stream.highwater

/-- Sets both marks by the size of the queue. -/
def setQueueMax (w : World) (h : HandleId) (size : Nat) : Except FileError World :=
  (w.checkStream h).map fun _ => w.modifyWriter h (·.withQueueMax size)

/-- Registers a callback for the moment when the queue has drained. -/
def onDrain (w : World) (h : HandleId) (handler : Callback Command) : Except FileError World :=
  (w.checkStream h).map fun _ =>
    let wait := ⟨w.nextDrain, w.handler handler⟩
    -- a callback that waited until now is dropped
    ({ w with nextDrain := w.nextDrain + 1 }.modifyWriter h (·.awaiting wait)).record
      (.awaited h wait.id)

/-- Registers a listener for the failures of a write stream. -/
def onWriteFailure (w : World) (h : HandleId) (listener : Listener Command) :
    Except FileError World :=
  (w.checkStream h).map fun _ =>
    w.modifyWriter h (·.listeningForFailure (w.registration listener))

/-! ## Asking -/

/-- The read stream of a handle, if its next read can be started: the handle is open, no
    read is under way, and the end was not reached. -/
def idleReader? (w : World) (h : HandleId) : Option Reader :=
  match w.handles[h]? with
  | none => none
  | some s =>
    if s.closed then none else s.reader.filter fun stream => !stream.busy && !stream.ended

/-- Whether the next read of a stream is wanted. -/
def wantsRead (w : World) (h : HandleId) : Bool :=
  (w.reader? h).any fun stream => !stream.paused && stream.data.isSome

/-- Whether the queue of a handle's write stream has drained. -/
def hasDrained (w : World) (h : HandleId) : Bool :=
  match w.handles[h]? with
  | none => false
  | some s => s.writer.any fun stream => s.outstanding ≤ stream.lowwater

/-- A world without the drain callback of a handle. -/
def clearDrain (w : World) (h : HandleId) : World := w.modifyWriter h ({ · with drain := none })

/-- The memory file that was opened into a slot. -/
def memory? (w : World) (f : Slot) : Option (BackendId × Nat × Memory) :=
  match (w.slot f).native with
  | none => none
  | some b =>
    match w.backends[b]? with
    | some (.memory label m) => some (b, label, m)
    | _ => none

/-! ## Opening -/

/-- A world with a new handle into slot `f`. -/
def addHandle (w : World) (f : Slot) (owner : ContextId) (options : OpenOptions) (sink : Sink)
    (path : Bytes) (backend : BackendId) (native : Option BackendId) : World :=
  let handle : Handle :=
    { owner, backend, sink, path
      readChunk := options.readBufferSize
      queueMax := options.writeQueueMaxSize }
  { w with handles := w.handles ++ [handle] }.setSlot f
    { handle := some w.handles.length, native }

/-- Opens a handle on a backend into slot `f`. -/
def openBackend (w : World) (f : Slot) (options : OpenOptions) (sink : Sink)
    (backend : BackendId) : Except FileError World :=
  (options.owner w.context).map fun owner =>
    w.addHandle f owner options sink [] backend (some backend)

/-- Opens a handle on a new memory file into slot `f`. -/
def openMemory (w : World) (f : Slot) (options : OpenOptions) (sink : Sink) (m : Memory) :
    Except FileError World :=
  { w with backends := w.backends ++ [Backend.memory f m] }.openBackend f options sink
    w.backends.length

/-- Opens the file at a path into slot `f`.  The permissions are looked at after the
    context. -/
def openPath (w : World) (f : Slot) (options : OpenOptions) (sink : Sink) (path : Bytes) :
    Except FileError World :=
  match options.owner w.context with
  | .error e => .error e
  | .ok owner =>
    match options.mode with
    | .error e => .error e
    | .ok mode =>
      match w.files.openPath path options.read options.write options.create mode with
      | .error e => .error (.openFailure path e)
      | .ok (descriptor, files) =>
        .ok ({ w with files, backends := w.backends ++ [Backend.file descriptor] }.addHandle
          f owner options sink path w.backends.length none)

end PinnedFile.World
