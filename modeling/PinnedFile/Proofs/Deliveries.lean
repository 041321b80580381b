/-
  PinnedFile.Proofs.Deliveries

  What a delivery can do, said once.

  Whom a delivery tells is settled by the world that it finds: `World.told` is the world in
  which that one has just been called, the handler of the operation, the listener of a
  stream, or the sink.  All that follows is the code of a client, and so it is moves.  After
  the client has been told, a stream may start its next read, and a close that waited may be
  queued.
-/

import PinnedFile.Proofs.Books.Moves

namespace PinnedFile

open Run

/-- A read stream whose read has come to an end. -/
def Reader.receiving (r : Reader) : Outcome → Reader
  | .error _ => { r with busy := false }
  | .ok [] => { r with busy := false, ended := true }
  | .ok chunk => { r with busy := false, position := r.position + chunk.length }

variable {w : World} {h : HandleId}

/-! ## Streams -/

namespace World

/-- A world in which the sink of a handle has just been told of a failure. -/
def toldSink (w : World) (h : HandleId) (e : FileError) : World :=
  match w.handles[h]? with
  | none => w
  | some s => w.record (.unheard h s.sink e)

/-- A world in which the failure of a read has just been told: to the listener of the stream,
    or to the sink. -/
def toldReadFailure (w : World) (h : HandleId) (e : FileError) : World :=
  match (w.reader? h).bind Reader.failure with
  | none => w.toldSink h (.unhandled e)
  | some r =>
    (w.modifyReader h ({ · with failure := some r.called })).record (.failed h r.listener.tag e)

/-- A world in which the failure of a write has just been told. -/
def toldWriteFailure (w : World) (h : HandleId) (e : FileError) : World :=
  match (w.writer? h).bind Writer.failure with
  | none => w.toldSink h (.unhandled e)
  | some r =>
    (w.modifyWriter h ({ · with failure := some r.called })).record (.failed h r.listener.tag e)

/-- A world in which the end of a read stream has just been told, if anybody listens. -/
def toldEnd (w : World) (h : HandleId) : World :=
  match (w.reader? h).bind Reader.ending with
  | none => w
  | some r =>
    (w.modifyReader h ({ · with ending := some r.called })).record (.ended h r.listener.tag)

/-- A world in which a chunk has just been handed to the data listener, if there is one. -/
def toldData (w : World) (h : HandleId) (chunk : Bytes) : World :=
  match (w.reader? h).bind Reader.data with
  | none => w
  | some r =>
    (w.modifyReader h ({ · with data := some r.called })).record (.data h r.listener.tag chunk)

/-- A world in which the drain callback of a write stream has just been called, if one waits
    and the queue has drained. -/
def toldDrained (w : World) (h : HandleId) : World :=
  match (w.writer? h).bind Writer.drain with
  | none => w
  | some wait =>
    if w.hasDrained h then (w.clearDrain h).record (.drained h wait.id wait.handler.tag) else w

/-- A world in which a read stream's read has come to an end, and what came of it has just
    been told. -/
def toldChunk (w : World) (h : HandleId) (outcome : Outcome) : World :=
  let w := w.modifyReader h (·.receiving outcome)
  match outcome with
  | .error e => w.toldReadFailure h (.native .read e)
  | .ok [] => w.toldEnd h
  | .ok chunk => w.toldData h chunk

theorem modifyReader_modifyReader {f g : Reader → Reader} :
    (w.modifyReader h f).modifyReader h g = w.modifyReader h (g ∘ f) := by
  simp only [modifyReader, modifyHandle, List.modify_modify_eq, Function.comp_def,
    Option.map_map]

/-- The call of a drain callback is a move of its own. -/
theorem moves_toldDrained (here : w.OnOwner h) : Moves w (w.toldDrained h) := by
  unfold toldDrained
  split
  · exact .refl
  next waiting =>
    split
    next drained => exact (Move.drained here waiting drained).moves
    · exact .refl

/-- To tell of a failure does not leave the context. -/
theorem onOwner_toldWriteFailure {k : HandleId} {e : FileError} (here : w.OnOwner k) :
    (w.toldWriteFailure h e).OnOwner k := by
  unfold toldWriteFailure
  split
  · unfold toldSink
    split
    · exact here
    · exact here
  · exact onOwner_modifyHandle (fun _ => rfl) here

end World

/-- The call of a listener: it is counted and noted, and then its commands are run. -/
theorem moves_call {f : World → World} {e : Event} {holds : List HandleId} {received : Bytes}
    {body : List Command} {called : World} (noted : (f w).record e = called) :
    Moves called (exec (do
      modify f
      note e
      holding holds (runAll received body)) w).2 := by
  rw [exec_modify_bind, exec_note_bind, noted]
  exact moves_holding (moves_runAll received body _)

theorem exec_tellSink {e : FileError} : exec (tellSink h e) w = (.ok (), w.toldSink h e) := by
  rw [tellSink, exec_get_bind, World.toldSink]
  rcases w.handles[h]? with _ | s <;> rfl

theorem moves_tellReadFailure {e : FileError} :
    Moves (w.toldReadFailure h e) (exec (tellReadFailure h e) w).2 := by
  rw [tellReadFailure, exec_get_bind, World.toldReadFailure, Option.bind_eq_bind]
  rcases (w.reader? h).bind Reader.failure with _ | r
  · dsimp only
    rw [exec_tellSink]
  · dsimp only
    exact moves_call rfl

theorem moves_tellWriteFailure {e : FileError} :
    Moves (w.toldWriteFailure h e) (exec (tellWriteFailure h e) w).2 := by
  rw [tellWriteFailure, exec_get_bind, World.toldWriteFailure, Option.bind_eq_bind]
  rcases (w.writer? h).bind Writer.failure with _ | r
  · dsimp only
    rw [exec_tellSink]
  · dsimp only
    exact moves_call rfl

theorem moves_tellEnd : Moves (w.toldEnd h) (exec (tellEnd h) w).2 := by
  rw [tellEnd, exec_get_bind, World.toldEnd, Option.bind_eq_bind]
  rcases (w.reader? h).bind Reader.ending with _ | r
  · exact .refl
  · dsimp only
    exact moves_call rfl

theorem moves_tellData {chunk : Bytes} :
    Moves (w.toldData h chunk) (exec (tellData h chunk) w).2 := by
  rw [tellData, exec_get_bind, World.toldData, Option.bind_eq_bind]
  rcases (w.reader? h).bind Reader.data with _ | r
  · exact .refl
  · dsimp only
    exact moves_call rfl

theorem moves_tellDrained : Moves (w.toldDrained h) (exec (tellDrained h) w).2 := by
  rw [tellDrained, exec_get_bind, World.toldDrained, Option.bind_eq_bind]
  rcases (w.writer? h).bind Writer.drain with _ | ⟨id, handler⟩
  · exact .refl
  · dsimp only
    split
    · exact moves_call rfl
    · exact .refl

theorem moves_finishChunk (outcome : Outcome) :
    Moves (w.toldChunk h outcome) (exec (finishChunk h outcome) w).2 := by
  unfold finishChunk
  rw [exec_modify_bind]
  rcases outcome with e | _ | ⟨first, rest⟩
  · exact moves_tellReadFailure
  · dsimp only
    rw [exec_modify_bind, World.modifyReader_modifyReader]
    exact moves_tellEnd
  · dsimp only
    rw [exec_modify_bind, World.modifyReader_modifyReader]
    exact moves_tellData

/-- Whoever is told of a write's failure makes moves, and after that the drain callback is
    looked at, unless there was a panic. -/
theorem moves_finishSend_error (here : w.OnOwner h) (e : IoError) : ∃ v,
    Moves (w.toldWriteFailure h (.native .write e)) v ∧
    Moves v (exec (finishSend h (.error e)) w).2 ∧
    ((exec (finishSend h (.error e)) w).1 = .ok () →
      Moves (v.toldDrained h) (exec (finishSend h (.error e)) w).2) := by
  have called : Moves (w.toldWriteFailure h (.native .write e)) _ := moves_tellWriteFailure
  have stays := (World.onOwner_toldWriteFailure here).moves called
  rw [finishSend]
  rcases told : exec (tellWriteFailure h (.native .write e)) w with ⟨message | _, v⟩
  · rw [told] at called
    rw [exec_bind_error told]
    exact ⟨v, called, .refl, fun ok => by cases ok⟩
  · rw [told] at called stays
    rw [exec_bind_ok told]
    exact ⟨v, called, (World.moves_toldDrained stays).trans moves_tellDrained,
      fun _ => moves_tellDrained⟩

/-! ## Operations -/

namespace Completion

/-- The handler that is called with the result of an operation. -/
def handler? : Completion → Option Handler
  | .write _ handler | .read _ _ handler => some handler
  | .flush handler | .close handler => handler
  | .send _ | .chunk => none

/-- The result of an operation whose native work came to `outcome`. -/
def result : Completion → Outcome → Except FileError Bytes
  | .read target offset _, outcome => readResult target offset outcome
  | c, outcome => plainResult c.operation outcome

end Completion

namespace World

/-- A world in which the client is about to be told of an outcome.  The streams of a handle
    that was closed have no registrations any more. -/
def aboutToTell (w : World) (job : Job) : World :=
  match job.completion with
  | .close _ => w.modifyHandle job.handle Handle.unregistered
  | _ => w

/-- A world in which the handler of an operation, if it has one, has just been called. -/
def toldHandler (w : World) (job : Job) (outcome : Outcome) : World :=
  match job.completion.handler? with
  | none => w
  | some handler => w.record (.handled job.id job.completion.operation handler.tag
      (job.completion.result outcome))

/-- A world in which the outcome of an operation without a handler has just been told: to
    the listener of its stream, or to the sink. -/
def toldWithoutHandler (w : World) (job : Job) (outcome : Outcome) : World :=
  match job.completion, outcome with
  | .chunk, outcome => w.toldChunk job.handle outcome
  | .send _, .ok _ => w.toldDrained job.handle
  | .send _, .error e => w.toldWriteFailure job.handle (.native .write e)
  | .flush none, .error e => w.toldSink job.handle (.native .flush e)
  | .close none, .error e => w.toldSink job.handle (.native .close e)
  | _, _ => w

/-- A world in which the client has just been told of an outcome, and no code of the client
    has run yet. -/
def told (w : World) (job : Job) (outcome : Outcome) : World :=
  ((w.aboutToTell job).toldHandler job outcome).toldWithoutHandler job outcome

/-- A world in which the client has been told of an outcome, and if it was a chunk, the stream
    has gone on. -/
def readsOn (w : World) (job : Job) (outcome : Outcome) : World :=
  match job.completion, outcome with
  | .chunk, .ok (_ :: _) => w.readingOn job.handle
  | _, _ => w

/-- A world in which an operation has just been completed. -/
def completing (w : World) (job : Job) (outcome : Outcome) : World :=
  (w.modifyHandle job.handle (·.releasing job.completion)).record (.completed job outcome)

theorem onOwner_completing {k : HandleId} (job : Job) (outcome : Outcome) (here : w.OnOwner k) :
    (w.completing job outcome).OnOwner k := onOwner_modifyHandle (fun _ => rfl) here

end World

/-- The call of an operation's handler, and what the handler does. -/
theorem moves_callHandler {job : Job} {handler : Handler} {result : Except FileError Bytes} :
    Moves (w.record (.handled job.id job.completion.operation handler.tag result))
      (exec (callHandler job handler result) w).2 := by
  rw [callHandler, exec_note_bind]
  refine leads_bind (moves_runAll _ _ _) fun _ after _ => ?_
  -- what only the handler held is let go of, the handle of the operation is not
  have settled : Moves after { after with held := [job.handle] }.sweep :=
    (Move.hold _).moves.trans Move.sweep.moves
  exact leads_modify settled

/-- Once somebody was called with an outcome, all is the client's own doing. -/
theorem moves_tell (job : Job) (outcome : Outcome) (here : w.OnOwner job.handle) :
    Moves (w.told job outcome) (exec (tell job outcome) w).2 := by
  rcases job with ⟨id, h, t, c⟩
  cases c with
  | write length handler => exact moves_callHandler
  | send length =>
    rcases outcome with e | bytes
    · obtain ⟨v, called, goes_on, -⟩ := moves_finishSend_error here e
      exact called.trans goes_on
    · exact moves_tellDrained
  | read target offset handler => exact moves_callHandler
  | chunk => exact moves_finishChunk outcome
  | flush handler =>
    rcases handler with _ | handler
    · rcases outcome with e | bytes
      · exact (congrArg Prod.snd exec_tellSink) ▸ .refl
      · exact .refl
    · exact moves_callHandler
  | close handler =>
    -- the registrations go before the handler of a close is called
    rw [Run.tell, exec_modify_bind]
    rcases handler with _ | handler
    · rcases outcome with e | bytes
      · exact (congrArg Prod.snd exec_tellSink) ▸ .refl
      · exact .refl
    · exact moves_callHandler

/-- A delivery completes the operation and tells the client, and if no callback panics, it
    notes that the client was told. -/
theorem exec_announce (job : Job) (outcome : Outcome) : exec (announce job outcome) w =
    exec (tell job outcome >>= fun _ => note (.delivered job.id)) (w.completing job outcome) := rfl

/-- On the context of its handle a delivery announces the outcome and goes on from there. -/
theorem exec_deliver {job : Job} {outcome : Outcome} (here : w.OnOwner job.handle) :
    exec (deliver job outcome) w = exec (announce job outcome >>= fun _ =>
      readOn job outcome >>= fun _ => closeIfQuiet job.handle) w := by
  rw [deliver, exec_get_bind, World.unbind_eq_ok_iff.mpr here]

/-- After a delivery a stream goes on only if a chunk was delivered. -/
theorem exec_readOn {job : Job} {outcome : Outcome} :
    (exec (readOn job outcome) w).2 = w.readsOn job outcome := by
  rcases job with ⟨id, k, t, c⟩
  cases c with
  | chunk =>
    rcases outcome with e | _ | ⟨first, more⟩
    · rfl
    · rfl
    · show (exec (do if (← get).wantsRead k then startRead k) w).2 = w.readingOn k
      rw [exec_get_bind]
      split
      next wanted => exact exec_startRead wanted
      next unwanted => exact (World.readingOn_of_unwanted (Bool.eq_false_iff.mpr unwanted)).symm
  | _ => rfl

end PinnedFile
