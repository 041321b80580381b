/-
  PinnedFile.World.Client

  What the commands of a client do.  Commands run on the loop, one after the other; a
  handler registered for later is stored with its commands, and only two commands run
  others before they end: the one that asks whether a queue is full, and the
  registration of a drain callback when there is nothing left to wait for.

  A command ends with a reply, or panics; a panic ends the whole task it belongs to and
  leaves the world as it is at that moment.
-/

import PinnedFile.World.Requests

namespace PinnedFile

/-- Code on the loop: it changes the world, and ends with a value or panics with the text
    that is shown for the panic. -/
abbrev Run := ExceptT String (StateM World)

namespace Run

/-- Puts an event into the history. -/
def note (event : Event) : Run Unit := modify (·.record event)

/-- Makes a request.  One that is refused leaves the world as it is. -/
def request (f : World → Except FileError World) : Run (Except FileError Unit) := do
  match f (← get) with
  | .error e => pure (.error e)
  | .ok w =>
    set w
    pure (.ok ())

/-- Makes a request and replies with the reason of a refusal. -/
def ask (f : World → Except FileError World) : Run Reply := .result <$> request f

/-- The text shown for the panic of a reservation beyond the largest buffer. -/
def capacityOverflow : String := "capacity overflow"

/-- The text shown for the panic of a command that was required and is refused. -/
def requirementText (what : String) (error : FileError) : String :=
  what ++ ": " ++ error.message fun id => toString id.number

/-- The text shown for the panic of a handle that is given up while its stream is being
    changed. -/
def changedMeanwhile : String := "a stream was taken down while it was being changed"

/-- The text shown for a panic that has none. -/
def textlessPanic : String := "non-string panic payload"

/-! ## Keeping handles -/

/-- Runs code that holds some handles until it ends. -/
def holding {α : Type} (handles : List HandleId) (code : Run α) : Run α := do
  let before := (← get).held
  modify fun w => { w with held := handles ++ before }
  let a ← code
  modify fun w => { w with held := before }.sweep
  pure a

/-- Makes a request that replaces a registration of a stream of some kind while the stream is
    being changed.  If the handle is given up with what is replaced, the stream cannot be taken
    down, and that is a panic. -/
def replace (h : HandleId) (kind : StreamKind) (f : World → Except FileError World) :
    Run Reply := do
  match ← request f with
  | .error e => pure (.result (.error e))
  | .ok () =>
    -- what is replaced takes along whatever nothing else refers to
    if (← get).sweep.isLive h then
      modify World.sweep
      pure (.result (.ok ()))
    else
      -- the caller had a live handle, so only what was replaced can have held the last of it
      modify fun w => (w.strand h kind).sweep
      throw changedMeanwhile

/-! ## Streams that go on by themselves -/

/-- Starts the next read of a read stream, if it can be started. -/
def startRead (h : HandleId) : Run Unit := do
  match (← get).idleReader? h with
  | none => pure ()
  | some stream =>
    -- the stream stays busy if there is no room for the bytes
    modify (·.modifyReader h ({ · with busy := true }))
    if stream.chunkSize > Buffer.maxLength then throw capacityOverflow
    modify (·.enqueue h (.ofRead stream.position stream.chunkSize) .chunk)

/-- Registers a listener for chunks, and starts to read unless the stream is paused.  The
    handle is held meanwhile. -/
def listenForData (h : HandleId) (listener : Listener Command) : Run Reply := do
  match ← request (·.onData h listener) with
  | .error e => pure (.result (.error e))
  | .ok () => holding [h] do
    if (← get).wantsRead h then startRead h
    pure (.result (.ok ()))

/-- Ends a pause, and goes on reading if somebody listens.  A stream that is not paused is
    left alone. -/
def resumeReading (h : HandleId) : Run Reply := do
  let wasPaused := ((← get).reader? h).any Reader.paused
  let result ← request (·.resume h)
  if result.isOk && wasPaused && (← get).wantsRead h then startRead h
  pure (.result result)

/-! ## What slots hold -/

/-- Goes on with the handle in a slot. -/
def withHandle (f : Slot) (next : HandleId → Run Reply) : Run Reply := do
  match ((← get).slot f).handle with
  | none => pure (.missing .file)
  | some h => next h

/-- Goes on with the handle whose read stream is in a slot. -/
def withReader (f : Slot) (next : HandleId → Run Reply) : Run Reply := do
  match ((← get).slot f).reader with
  | none => pure (.missing .readStream)
  | some h => next h

/-- Goes on with the handle whose write stream is in a slot. -/
def withWriter (f : Slot) (next : HandleId → Run Reply) : Run Reply := do
  match ((← get).slot f).writer with
  | none => pure (.missing .writeStream)
  | some h => next h

/-- Opens a file into a slot. -/
def openFile (f : Slot) (options : OpenOptions) (sink : Sink) (source : Source)
    (received : Bytes) : Run Reply := do
  match source with
  | .memory data max directives =>
    ask (·.openMemory f options sink { data := data.resolve received, max, directives })
  | .path bytes => ask (·.openPath f options sink bytes)
  | .shared g =>
    match (← get).memory? g with
    | none => pure (.missing .native)
    | some (b, _) =>
      if (← get).isHeld b then ask (·.openBackend f options sink b)
      else pure (.missing .native)

/-- Puts a handle got through a stream into a slot. -/
def putHandle (h : HandleId) (target : Slot) : Run Reply :=
  ask fun w => if w.isLive h then .ok (w.setSlotHandle target (some h)) else .error .closed

end Run

/-! ## Commands -/

mutual

/-- Runs a command in a handler that received `received`. -/
def Command.run (received : Bytes) : Command → Run Reply
  | .openFile f options sink source => Run.openFile f options sink source received
  | .clone f target => Run.withHandle f fun h => do
    modify (·.setSlotHandle target (some h))
    pure (.result (.ok ()))
  | .drop f => Run.withHandle f fun _ => do
    modify (·.setSlotHandle f none)
    pure (.result (.ok ()))
  | .write f data position handler => Run.withHandle f fun h =>
    Run.ask (·.write h (data.resolve received) position handler)
  | .read f target offset position length handler => Run.withHandle f fun h =>
    Run.ask (·.read h (target.resolve received) offset position length handler)
  | .flush f handler => Run.withHandle f fun h => Run.ask (·.flush h handler)
  | .close f handler => Run.withHandle f fun h => Run.ask (·.close h handler)
  | .readStream f => Run.withHandle f fun h =>
    Run.ask fun w => (w.readStream h).map fun w => w.setSlot f { w.slot f with reader := some h }
  | .writeStream f => Run.withHandle f fun h =>
    Run.ask fun w => (w.writeStream h).map fun w => w.setSlot f { w.slot f with writer := some h }
  | .describe f => Run.withHandle f fun h => do
    match (← get).handles[h]? with
    | none => pure (.missing .file)
    | some s => pure (.handle s)
  | .path f => Run.withHandle f fun h => do
    match (← get).handles[h]? with
    | none => pure (.missing .file)
    | some s => pure (.path s.path)
  | .onData f listener => Run.withReader f fun h => Run.listenForData h listener
  | .onEnd f listener => Run.withReader f fun h => Run.replace h .read (·.onEnd h listener)
  | .onReadFailure f listener => Run.withReader f fun h =>
    Run.replace h .read (·.onReadFailure h listener)
  | .clearData f => Run.withReader f fun h => Run.replace h .read (·.clearData h)
  | .pause f => Run.withReader f fun h => Run.ask (·.pause h)
  | .resume f => Run.withReader f fun h => Run.resumeReading h
  | .pauseResume f => Run.withReader f fun h => do
    match ← Run.request (·.pause h) with
    | .error e => pure (.result (.error e))
    | .ok () => Run.resumeReading h
  | .setChunkSize f size => Run.withReader f fun h => Run.ask (·.setChunkSize h size)
  | .readerHandle f target => Run.withReader f fun h => Run.putHandle h target
  | .send f data => Run.withWriter f fun h => Run.ask (·.send h (data.resolve received))
  | .sendTwice f data => Run.withWriter f fun h => do
    match ← Run.request (·.send h (data.resolve received)) with
    | .error e => pure (.result (.error e))
    | .ok () => Run.ask (·.send h (data.resolve received))
  | .queueFull f => Run.withWriter f fun h => do
    match (← get).queueFull h with
    | .error e => pure (.result (.error e))
    | .ok full => pure (.flag full)
  | .ifQueueFull f yes no => Run.withWriter f fun h => do
    match (← get).queueFull h with
    | .error e => pure (.result (.error e))
    | .ok true =>
      runAll received yes
      pure (.flag true)
    | .ok false =>
      runAll received no
      pure (.flag false)
  | .setQueueMax f size => Run.withWriter f fun h => Run.ask (·.setQueueMax h size)
  | .onDrain f ⟨tag, body, keeps⟩ => Run.withWriter f fun h => do
    let wait := (← get).nextDrain
    let kept := (← get).handlesIn keeps
    match ← Run.request (·.onDrain h ⟨tag, body, keeps⟩) with
    | .error e => pure (.result (.error e))
    | .ok () => Run.holding [h] do
      -- there is nothing to wait for, so the callback is called within its registration
      if (← get).hasDrained h then
        modify (·.clearDrain h)
        Run.note (.drained h wait tag)
        Run.holding kept (runAll [] body)
      pure (.result (.ok ()))
  | .onWriteFailure f listener => Run.withWriter f fun h =>
    Run.replace h .write (·.onWriteFailure h listener)
  | .writerHandle f target => Run.withWriter f fun h => Run.putHandle h target
  | .execute context task => do
    if context < World.namedContexts then
      modify (·.post (.client ⟨context⟩ task))
      pure (.result (.ok ()))
    else pure (.missing .context)
  | .currentContext => do pure (.context (← get).context)
  | .contextTexts => do pure (.contextTexts (← get).context)
  | .contents f => do
    match (← get).memory? f with
    | none => pure (.missing .native)
    | some (_, _, m) => pure (.bytes m.data)
  | .held f => do
    match (← get).memory? f with
    | none => pure (.missing .native)
    | some (b, _) => pure (.flag ((← get).isHeld b))
  | .adjust f data max directives => do
    match (← get).memory? f with
    | none => pure (.missing .native)
    | some (b, label, m) =>
      let m := m.adjusted (data.map (·.resolve received)) max directives
      modify fun w => { w with backends := w.backends.set b (.memory label m) }
      pure (.result (.ok ()))
  | .require what c => do
    match ← c.run received with
    | .result (.error e) => throw (Run.requirementText what e)
    | reply => pure reply
  | .shutDown origin => do
    modify (·.shutDown origin)
    pure (.result (.ok ()))
  | .panic message => do
    Run.note .panicking
    throw (message.getD Run.textlessPanic)

/-- Runs the commands of a handler that received `received`. -/
def runAll (received : Bytes) : List Command → Run Unit
  | [] => pure ()
  | c :: rest => do
    let reply ← c.run received
    -- a command that panics is not noted, and those behind it are not run
    Run.note (.ran c reply)
    runAll received rest

end

end PinnedFile
