/-
  PinnedFile.Proofs.Moves

  What the code of a client can do, said once.

  A move is one change that a command makes: an accepted request with all that made it
  acceptable and all that it brings about, a slot or a held handle, the call of a drain
  callback.  A call that has a read stream go on is one move with the read that it starts,
  for a stream that could go on and does not is found at no other time.  The commands of a
  client are sequences of moves, whatever they are and however they end; so what every move
  keeps, all code of clients keeps.
-/

import Mathlib.Logic.Relation
import PinnedFile.Proofs.Code

namespace PinnedFile

theorem except_map_eq_ok {ε α β : Type} {f : α → β} {x : Except ε α} {b : β} :
    x.map f = .ok b ↔ ∃ a, x = .ok a ∧ f a = b := by
  cases x <;> simp [Except.map]

/-- The owner of a file that may be opened is the context of the running code. -/
theorem OpenOptions.current_of_owner {options : OpenOptions} {current : Option ContextId}
    {owner : ContextId} (owned : options.owner current = .ok owner) : current = some owner := by
  unfold OpenOptions.owner at owned
  split at owned
  · cases owned
  · split at owned
    · cases owned
    · rw [Except.ok.inj owned]

namespace World

/-- The running code is on the context that owns a handle. -/
def OnOwner (w : World) (h : HandleId) : Prop :=
  ∃ s, w.handles[h]? = some s ∧ w.context = some s.owner

theorem guard_eq_ok_iff {w : World} {s : Handle} :
    w.guard s = .ok () ↔ w.context = some s.owner := by
  unfold guard
  split <;> simp [*]

/-- A handle accepts requests exactly on its own context and as long as it is open. -/
theorem check_eq_ok_iff {w : World} {h : HandleId} {s : Handle} :
    w.check h = .ok s ↔
      w.handles[h]? = some s ∧ w.context = some s.owner ∧ s.closed = false := by
  unfold check
  constructor
  · intro accepted
    split at accepted
    · cases accepted
    next found known =>
      rcases here : w.guard found with e | _
      · rw [here] at accepted
        cases accepted
      · rw [here] at accepted
        dsimp only [Except.bind] at accepted
        split at accepted
        · cases accepted
        next opened =>
          obtain rfl := Except.ok.inj accepted
          exact ⟨known, guard_eq_ok_iff.mp here, Bool.eq_false_iff.mpr opened⟩
  · rintro ⟨known, here, opened⟩
    simp [known, guard_eq_ok_iff.mpr here, opened, Except.bind]

/-- What is bound to the context of a handle is taken back there and nowhere else. -/
theorem unbind_eq_ok_iff {w : World} {h : HandleId} : w.unbind h = .ok () ↔ w.OnOwner h := by
  unfold unbind
  split
  next unknown => simp [OnOwner, unknown]
  next s known => simp [OnOwner, known, guard_eq_ok_iff]

theorem check_of_checkStream {w : World} {h : HandleId} {s : Handle}
    (accepted : w.checkStream h = .ok s) : w.check h = .ok s := by
  unfold checkStream at accepted
  split at accepted
  · exact accepted
  · cases accepted

theorem onOwner_of_check {w : World} {h : HandleId} {s : Handle}
    (accepted : w.check h = .ok s) : w.OnOwner h := by
  obtain ⟨known, here, -⟩ := check_eq_ok_iff.mp accepted
  exact ⟨s, known, here⟩

theorem onOwner_modifyHandle {w : World} {h k : HandleId} {f : Handle → Handle}
    (same : ∀ s, (f s).owner = s.owner) (here : w.OnOwner h) : (w.modifyHandle k f).OnOwner h := by
  obtain ⟨s, known, here⟩ := here
  by_cases equal : k = h
  · exact ⟨f s, by simp [modifyHandle, known, equal], by rw [same]; exact here⟩
  · exact ⟨s, by simp [modifyHandle, known, equal], here⟩

/-- Streams do not matter to the owner of a handle. -/
theorem onOwner_modifyReader {w : World} {h k : HandleId} {f : Reader → Reader}
    (here : w.OnOwner h) : (w.modifyReader k f).OnOwner h :=
  onOwner_modifyHandle (fun _ => rfl) here

/-! ## Requests that more is asked of -/

/-- A read is queued on a handle that accepts it. -/
theorem exists_read {w after : World} {h : HandleId} {target : Bytes}
    {offset position length : Nat} {handler : Callback Command}
    (ok : w.read h target offset position length handler = .ok after) :
    ∃ s, w.check h = .ok s ∧ after =
      w.enqueue h (.ofRead position length) (.read target offset (w.handler handler)) := by
  unfold read at ok
  split at ok
  · cases ok
  next s passed =>
    split at ok
    · exact ⟨s, passed, (Except.ok.inj ok).symm⟩
    · cases ok

/-- A size of chunks is not zero. -/
theorem exists_setChunkSize {w after : World} {h : HandleId} {size : Nat}
    (ok : w.setChunkSize h size = .ok after) :
    ∃ s, w.checkStream h = .ok s ∧ 0 < size ∧ after =
      w.modifyReader h fun r => { r.noting (.resize size) with chunkSize := size } := by
  unfold setChunkSize at ok
  split at ok
  · cases ok
  next s passed =>
    split at ok
    · cases ok
    next positive => exact ⟨s, passed, Nat.pos_of_ne_zero positive, (Except.ok.inj ok).symm⟩

section OpenPath

variable {w after : World} {f : Slot} {options : OpenOptions} {sink : Sink} {path : Bytes}
  {owner : ContextId} {mode : Nat}

/-- A file that can be opened is opened. -/
theorem openPath_ok {d : Descriptor} {files : FileTree}
    (here : options.owner w.context = .ok owner) (allowed : options.mode = .ok mode)
    (opens : w.files.openPath path options.read options.write options.create mode =
      .ok (d, files)) :
    w.openPath f options sink path =
      .ok ({ w with files, backends := w.backends ++ [Backend.file d] }.addHandle f owner options
        sink path w.backends.length none) := by
  rw [openPath, here]
  dsimp only
  rw [allowed]
  dsimp only
  rw [opens]

/-- A file that cannot be opened is refused. -/
theorem openPath_error {error : IoError}
    (here : options.owner w.context = .ok owner) (allowed : options.mode = .ok mode)
    (refused : w.files.openPath path options.read options.write options.create mode =
      .error error) : w.openPath f options sink path = .error (.openFailure path error) := by
  rw [openPath, here]
  dsimp only
  rw [allowed]
  dsimp only
  rw [refused]

/-- What a path leads to is opened for the context of the running code. -/
theorem exists_openPath (ok : w.openPath f options sink path = .ok after) :
    ∃ owner descriptor files, options.owner w.context = .ok owner ∧ after =
      ({ w with files, backends := w.backends ++ [.file descriptor] } : World).addHandle
        f owner options sink path w.backends.length none := by
  unfold openPath at ok
  split at ok
  · cases ok
  next owner owned =>
    split at ok
    · cases ok
    · split at ok
      · cases ok
      next descriptor files _ =>
        exact ⟨owner, descriptor, files, owned, (Except.ok.inj ok).symm⟩

end OpenPath

/-! ## Streams that go on by themselves -/

/-- A world in which the next read of a read stream was started.  If there is no room for the
    bytes, the stream is busy and nothing else has happened. -/
def startingRead (w : World) (h : HandleId) (stream : Reader) : World :=
  let w := w.modifyReader h ({ · with busy := true })
  if stream.chunkSize > Buffer.maxLength then w
  else w.enqueue h (.ofRead stream.position stream.chunkSize) .chunk

/-- A world in which a read stream has gone on by itself: its next read was started, if it is
    wanted and can be started. -/
def readingOn (w : World) (h : HandleId) : World :=
  if w.wantsRead h then
    match w.idleReader? h with
    | none => w
    | some stream => w.startingRead h stream
  else w

theorem readingOn_of_unwanted {w : World} {h : HandleId} (unwanted : w.wantsRead h = false) :
    w.readingOn h = w := if_neg (Bool.eq_false_iff.mp unwanted)

/-- A stream that goes on is left as it is, or its next read is started. -/
theorem readingOn_cases (w : World) (h : HandleId) : w.readingOn h = w ∨
    ∃ stream, w.wantsRead h = true ∧ w.idleReader? h = some stream ∧
      w.readingOn h = w.startingRead h stream := by
  unfold readingOn
  split
  next wanted =>
    split
    · exact .inl rfl
    next stream idle => exact .inr ⟨stream, wanted, idle, rfl⟩
  · exact .inl rfl

/-- The start of a read is a mark on the stream, and an operation if there is room. -/
theorem startingRead_cases (w : World) (h : HandleId) (stream : Reader) :
    (Buffer.maxLength < stream.chunkSize ∧
      w.startingRead h stream = w.modifyReader h ({ · with busy := true })) ∨
    (stream.chunkSize ≤ Buffer.maxLength ∧ w.startingRead h stream =
      (w.modifyReader h ({ · with busy := true })).enqueue h
        (.ofRead stream.position stream.chunkSize) .chunk) := by
  unfold startingRead
  by_cases large : stream.chunkSize > Buffer.maxLength
  · exact .inl ⟨large, if_pos large⟩
  · exact .inr ⟨Nat.le_of_not_lt large, if_neg large⟩

/-- It makes no difference to a stream what is held meanwhile. -/
theorem readingOn_held {w : World} {h : HandleId} {handles : List HandleId} :
    ({ w with held := handles } : World).readingOn h =
      { w.readingOn h with held := handles } := by
  have submitted (v : World) (job : Job) : ({ v with held := handles } : World).submit job =
      { v.submit job with held := handles } := by
    unfold submit
    dsimp only
    split <;> rfl
  unfold readingOn
  rw [show ({ w with held := handles } : World).wantsRead h = w.wantsRead h from rfl,
    show ({ w with held := handles } : World).idleReader? h = w.idleReader? h from rfl]
  split
  · split
    · rfl
    next stream _ =>
      unfold startingRead
      split
      · rfl
      · exact submitted ((w.modifyReader h ({ · with busy := true })).accept h
          (.ofRead stream.position stream.chunkSize) .chunk).2 _
  · rfl

end World

/-- One change that the code of a client makes. -/
inductive Move : World → World → Prop where
  | openMemory {w after : World} {f : Slot} {options : OpenOptions} {sink : Sink} {m : Memory}
      (accepted : w.openMemory f options sink m = .ok after) : Move w after
  | openBackend {w after : World} {f : Slot} {options : OpenOptions} {sink : Sink}
      {b : BackendId} (held : w.isHeld b = true)
      (accepted : w.openBackend f options sink b = .ok after) : Move w after
  | openPath {w after : World} {f : Slot} {options : OpenOptions} {sink : Sink} {path : Bytes}
      (accepted : w.openPath f options sink path = .ok after) : Move w after
  | keep {w : World} {f : Slot} {h : HandleId} : Move w (w.setSlotHandle f (some h))
  | giveUp {w : World} {f : Slot} : Move w (w.setSlotHandle f none)
  | write {w after : World} {h : HandleId} {data : Bytes} {position : Nat}
      {handler : Callback Command} (accepted : w.write h data position handler = .ok after) :
      Move w after
  | read {w after : World} {h : HandleId} {target : Bytes} {offset position length : Nat}
      {handler : Callback Command}
      (accepted : w.read h target offset position length handler = .ok after) : Move w after
  | flush {w after : World} {h : HandleId} {handler : Option (Callback Command)}
      (accepted : w.flush h handler = .ok after) : Move w after
  | close {w after : World} {h : HandleId} {handler : Option (Callback Command)}
      (accepted : w.close h handler = .ok after) : Move w after
  | readStream {w after : World} {h : HandleId} (f : Slot)
      (accepted : w.readStream h = .ok after) :
      Move w (after.setSlot f { after.slot f with reader := some h })
  | writeStream {w after : World} {h : HandleId} (f : Slot)
      (accepted : w.writeStream h = .ok after) :
      Move w (after.setSlot f { after.slot f with writer := some h })
  /-- A listener for chunks is registered, and the stream goes on unless it is paused. -/
  | listen {w middle : World} {h : HandleId} {listener : Listener Command}
      (accepted : w.onData h listener = .ok middle) : Move w (middle.readingOn h)
  | clearData {w after : World} {h : HandleId} (accepted : w.clearData h = .ok after) :
      Move w after
  | onEnd {w after : World} {h : HandleId} {listener : Listener Command}
      (accepted : w.onEnd h listener = .ok after) : Move w after
  | onReadFailure {w after : World} {h : HandleId} {listener : Listener Command}
      (accepted : w.onReadFailure h listener = .ok after) : Move w after
  | pause {w after : World} {h : HandleId} (accepted : w.pause h = .ok after) : Move w after
  /-- A pause is ended, and the stream goes on if anybody listens. -/
  | resume {w middle : World} {h : HandleId} (accepted : w.resume h = .ok middle)
      (paused : (w.reader? h).any Reader.paused = true) : Move w (middle.readingOn h)
  /-- A stream that is not paused is resumed. -/
  | resumeFlowing {w after : World} {h : HandleId} (accepted : w.resume h = .ok after)
      (flowing : (w.reader? h).any Reader.paused = false) : Move w after
  | setChunkSize {w after : World} {h : HandleId} {size : Nat}
      (accepted : w.setChunkSize h size = .ok after) : Move w after
  | send {w after : World} {h : HandleId} {data : Bytes}
      (got : ∃ f, (w.slot f).writer = some h) (accepted : w.send h data = .ok after) :
      Move w after
  | setQueueMax {w after : World} {h : HandleId} {size : Nat}
      (accepted : w.setQueueMax h size = .ok after) : Move w after
  /-- A drain callback is registered, and there is something to wait for. -/
  | awaitDrain {w after : World} {h : HandleId} {handler : Callback Command}
      (accepted : w.onDrain h handler = .ok after) (waits : after.hasDrained h = false) :
      Move w after
  /-- A drain callback is registered, and it is called as the queue is drained already. -/
  | drainAtOnce {w after : World} {h : HandleId} {handler : Callback Command}
      (accepted : w.onDrain h handler = .ok after) (drained : after.hasDrained h = true) :
      Move w ((after.clearDrain h).record (.drained h w.nextDrain handler.tag))
  | onWriteFailure {w after : World} {h : HandleId} {listener : Listener Command}
      (accepted : w.onWriteFailure h listener = .ok after) : Move w after
  /-- The callback that waits for a write queue to drain is called. -/
  | drained {w : World} {h : HandleId} {wait : DrainWait} (here : w.OnOwner h)
      (waiting : (w.writer? h).bind Writer.drain = some wait)
      (drained : w.hasDrained h = true) :
      Move w ((w.clearDrain h).record (.drained h wait.id wait.handler.tag))
  | hold {w : World} (handles : List HandleId) : Move w { w with held := handles }
  | sweep {w : World} : Move w w.sweep
  /-- A handle was given up while one of its streams was being changed. -/
  | strand {w : World} (h : HandleId) (kind : StreamKind) : Move w (w.strand h kind)
  | execute {w : World} {context : Nat} {task : Callback Command}
      (named : context < World.namedContexts) : Move w (w.post (.client ⟨context⟩ task))
  | adjust {w : World} {b : BackendId} {label : Nat} {m : Memory} (adjusted : Memory)
      (known : w.backends[b]? = some (.memory label m)) :
      Move w { w with backends := w.backends.set b (.memory label adjusted) }
  | shutDown {w : World} (origin : Origin) : Move w (w.shutDown origin)
  | ran {w : World} (c : Command) (reply : Reply) : Move w (w.record (.ran c reply))
  | panicking {w : World} : Move w (w.record .panicking)

/-- Any number of moves, one after the other. -/
abbrev Moves : World → World → Prop := Relation.ReflTransGen Move

theorem Move.moves {w after : World} (m : Move w after) : Moves w after := .single m

open Run

/-! ## The parts of commands -/

section Slots

variable {R : World → World → Prop} [IsPreorder World R] {w : World}

theorem leads_withHandle {f : Slot} {next : HandleId → Run Reply}
    (found : ∀ h, Leads R (next h) w) : Leads R (withHandle f next) w := by
  apply leads_get_bind
  split
  · exact leads_pure _
  · exact found _

theorem leads_withReader {f : Slot} {next : HandleId → Run Reply}
    (found : ∀ h, Leads R (next h) w) : Leads R (withReader f next) w := by
  apply leads_get_bind
  split
  · exact leads_pure _
  · exact found _

theorem leads_withWriter {f : Slot} {next : HandleId → Run Reply}
    (found : ∀ h, (w.slot f).writer = some h → Leads R (next h) w) :
    Leads R (withWriter f next) w := by
  apply leads_get_bind
  split
  · exact leads_pure _
  next h there => exact found h there

end Slots

variable {w : World} {h : HandleId}

theorem moves_ask {f : World → Except FileError World}
    (accepted : ∀ after, f w = .ok after → Move w after) : Leads Moves (ask f) w :=
  leads_ask fun after ok => (accepted after ok).moves

/-- Where code leads that holds some handles meanwhile, there it leads. -/
theorem moves_within {α : Type} {handles : List HandleId} {code : Run α} {before : World}
    (inside : Moves before (exec code { w with held := handles ++ w.held }).2) :
    Moves before (exec (holding handles code) w).2 := by
  rw [holding, exec_get_bind, exec_modify_bind]
  refine inside.trans (related_bind fun a after _ => ?_)
  apply leads_modify_bind ((Move.hold w.held).moves.trans Move.sweep.moves)
  exact leads_pure a

theorem moves_holding {α : Type} {handles : List HandleId} {code : Run α}
    (inside : Leads Moves code { w with held := handles ++ w.held }) :
    Leads Moves (holding handles code) w := moves_within ((Move.hold _).moves.trans inside)

theorem moves_replace {kind : StreamKind} {f : World → Except FileError World}
    (accepted : ∀ after, f w = .ok after → Move w after) : Leads Moves (replace h kind f) w := by
  refine leads_request_bind (fun e _ => leads_pure _) (fun after ok => (accepted after ok).moves) ?_
  intro after _
  apply leads_get_bind
  split
  · exact leads_modify_bind Move.sweep.moves (leads_pure _)
  · exact leads_modify_bind ((Move.strand h kind).moves.trans Move.sweep.moves) (leads_throw _)

/-- A read that is wanted is started, if it can be started. -/
theorem exec_startRead (wanted : w.wantsRead h = true) :
    (exec (startRead h) w).2 = w.readingOn h := by
  rw [startRead, exec_get_bind, World.readingOn, if_pos wanted]
  rcases w.idleReader? h with _ | stream
  · rfl
  · -- the stream is marked as busy in either case, and then the task panics or a read begins
    rw [exec_modify_bind]
    unfold World.startingRead
    dsimp only
    split
    · rw [exec_bind_error (exec_throw _)]
    · rfl

theorem exec_startRead_bind (wanted : w.wantsRead h = true) {reply : Reply} :
    (exec (startRead h >>= fun _ => pure reply) w).2 = w.readingOn h := by
  rw [← exec_startRead wanted]
  rcases started : exec (startRead h) w with ⟨message | _, after⟩
  · rw [exec_bind_error started]
  · rw [exec_bind_ok started, exec_pure]

theorem moves_listenForData {listener : Listener Command} :
    Leads Moves (listenForData h listener) w := by
  rcases decided : w.onData h listener with e | middle
  · rw [Leads, listenForData, exec_bind_ok (exec_request_error decided)]
    exact .refl
  · rw [Leads, listenForData, exec_bind_ok (exec_request_ok decided)]
    apply moves_within
    have listens : Moves w { middle.readingOn h with held := [h] ++ middle.held } :=
      (Move.listen decided).moves.tail (.hold _)
    rw [← World.readingOn_held] at listens
    rw [exec_get_bind]
    dsimp only
    split
    next wanted => rwa [exec_startRead_bind wanted]
    next unwanted => rwa [World.readingOn_of_unwanted (Bool.eq_false_iff.mpr unwanted)] at listens

theorem moves_resumeReading : Leads Moves (resumeReading h) w := by
  apply leads_get_bind
  rcases decided : w.resume h with e | middle
  · rw [Leads, exec_bind_ok (exec_request_error decided)]
    exact .refl
  · rw [Leads, exec_bind_ok (exec_request_ok decided), exec_get_bind]
    dsimp only
    rcases paused : (w.reader? h).any Reader.paused with _ | _
    · exact (Move.resumeFlowing decided paused).moves
    · have resumes : Moves w (middle.readingOn h) := (Move.resume decided paused).moves
      split
      next wanted =>
        simp only [Bool.and_eq_true] at wanted
        rwa [exec_startRead_bind wanted.2]
      next unwanted =>
        have unwanted : middle.wantsRead h = false := by
          simpa [Except.isOk, Except.toBool] using unwanted
        rwa [World.readingOn_of_unwanted unwanted] at resumes

theorem moves_openFile {f : Slot} {options : OpenOptions} {sink : Sink} {source : Source}
    {received : Bytes} : Leads Moves (openFile f options sink source received) w := by
  rcases source with ⟨data, max, directives⟩ | g | path
  · exact moves_ask fun after ok => .openMemory ok
  · apply leads_get_bind
    split
    · exact leads_pure _
    · apply leads_get_bind
      split
      next held => exact moves_ask fun after ok => .openBackend held ok
      · exact leads_pure _
  · exact moves_ask fun after ok => .openPath ok

theorem moves_putHandle {target : Slot} : Leads Moves (putHandle h target) w := by
  apply moves_ask
  intro after ok
  split at ok
  · obtain rfl := Except.ok.inj ok
    exact .keep
  · cases ok

theorem World.backend_of_memory? {f : Slot} {b : BackendId} {label : Nat} {m : Memory}
    (found : w.memory? f = some (b, label, m)) : w.backends[b]? = some (.memory label m) := by
  unfold World.memory? at found
  split at found
  · cases found
  · split at found
    next known =>
      obtain ⟨rfl, rfl, rfl⟩ := by simpa using found
      exact known
    · cases found

/-- A command that changes no slot may ask the same of a slot once more. -/
theorem World.slots_send {data : Bytes} {after : World} (ok : w.send h data = .ok after) :
    after.slots = w.slots := by
  obtain ⟨s, -, rfl⟩ := except_map_eq_ok.mp ok
  simp only [World.enqueue, World.submit]
  split <;> rfl

/-- The registration of a drain callback, after which the callback waits or is called. -/
theorem moves_onDrain (handler : Callback Command) {kept : List HandleId} {reply : Reply}
    {after : World} (ok : w.onDrain h handler = .ok after)
    (body : ∀ v, Leads Moves (runAll [] handler.body) v) :
    Moves w (exec (holding [h] do
      if (← get).hasDrained h then
        modify (·.clearDrain h)
        note (.drained h w.nextDrain handler.tag)
        holding kept (runAll [] handler.body)
      pure reply) after).2 := by
  -- that the handle is held meanwhile makes no difference to the queue
  have same : ({ after with held := [h] ++ after.held } : World).hasDrained h =
      after.hasDrained h := rfl
  apply moves_within
  rw [exec_get_bind]
  dsimp only
  rcases drained : after.hasDrained h with _ | _
  · rw [same, drained, if_neg Bool.false_ne_true]
    exact (Move.awaitDrain ok drained).moves.tail (.hold _)
  · rw [same, drained, if_pos rfl, exec_modify_bind, exec_note_bind]
    have called : Move w ((after.clearDrain h).record (.drained h w.nextDrain handler.tag)) :=
      .drainAtOnce ok drained
    refine (called.moves.tail (.hold ([h] ++ after.held))).trans ?_
    exact leads_bind (moves_holding (body _)) fun _ _ _ => leads_pure _

/-! ## Commands -/

mutual

theorem moves_command (received : Bytes) : (c : Command) → (w : World) →
    Leads Moves (c.run received) w
  | .openFile .., w => moves_openFile
  | .clone .., w => leads_withHandle fun h => leads_modify_bind Move.keep.moves (leads_pure _)
  | .drop .., w => leads_withHandle fun h => leads_modify_bind Move.giveUp.moves (leads_pure _)
  | .write .., w => leads_withHandle fun h => moves_ask fun after ok => .write ok
  | .read .., w => leads_withHandle fun h => moves_ask fun after ok => .read ok
  | .flush .., w => leads_withHandle fun h => moves_ask fun after ok => .flush ok
  | .close .., w => leads_withHandle fun h => moves_ask fun after ok => .close ok
  | .readStream f, w => by
    apply leads_withHandle
    intro h
    apply moves_ask
    intro after ok
    obtain ⟨got, accepted, rfl⟩ := except_map_eq_ok.mp ok
    exact .readStream f accepted
  | .writeStream f, w => by
    apply leads_withHandle
    intro h
    apply moves_ask
    intro after ok
    obtain ⟨got, accepted, rfl⟩ := except_map_eq_ok.mp ok
    exact .writeStream f accepted
  | .describe f, w | .path f, w => by
    apply leads_withHandle
    intro h
    apply leads_get_bind
    split <;> exact leads_pure _
  | .onData .., w => leads_withReader fun h => moves_listenForData
  | .onEnd .., w => leads_withReader fun h => moves_replace fun after ok => .onEnd ok
  | .onReadFailure .., w =>
    leads_withReader fun h => moves_replace fun after ok => .onReadFailure ok
  | .clearData .., w => leads_withReader fun h => moves_replace fun after ok => .clearData ok
  | .pause .., w => leads_withReader fun h => moves_ask fun after ok => .pause ok
  | .resume .., w => leads_withReader fun h => moves_resumeReading
  | .pauseResume .., w => leads_withReader fun h =>
    leads_request_bind (fun e _ => leads_pure _) (fun after ok => (Move.pause ok).moves)
      fun after _ => moves_resumeReading
  | .setChunkSize .., w => leads_withReader fun h => moves_ask fun after ok => .setChunkSize ok
  | .readerHandle .., w => leads_withReader fun h => moves_putHandle
  | .send .., w =>
    leads_withWriter fun h got => moves_ask fun after ok => .send ⟨_, got⟩ ok
  | .sendTwice .., w => by
    apply leads_withWriter
    intro h got
    refine leads_request_bind (fun e _ => leads_pure _)
      (fun after ok => (Move.send ⟨_, got⟩ ok).moves) fun middle first => ?_
    have gotStill : ∃ f, (middle.slot f).writer = some h :=
      ⟨_, by rw [World.slot, World.slots_send first]; exact got⟩
    exact moves_ask fun after ok => .send gotStill ok
  | .queueFull f, w => by
    apply leads_withWriter
    intro h _
    apply leads_get_bind
    split <;> exact leads_pure _
  -- the branches are bodies of their own, so the recursion goes through `moves_runAll`
  | .ifQueueFull f yes no, w => by
    apply leads_withWriter
    intro h _
    apply leads_get_bind
    split
    · exact leads_pure _
    · exact leads_bind (moves_runAll received yes w) fun _ _ _ => leads_pure _
    · exact leads_bind (moves_runAll received no w) fun _ _ _ => leads_pure _
  | .setQueueMax .., w => leads_withWriter fun h _ => moves_ask fun after ok => .setQueueMax ok
  | .onDrain f ⟨tag, body, keeps⟩, w => by
    apply leads_withWriter
    intro h _
    apply leads_get_bind
    apply leads_get_bind
    rcases decided : w.onDrain h ⟨tag, body, keeps⟩ with e | after
    · rw [Leads, exec_bind_ok (exec_request_error decided)]
      exact leads_pure _
    · rw [Leads, exec_bind_ok (exec_request_ok decided)]
      exact moves_onDrain ⟨tag, body, keeps⟩ decided (moves_runAll [] body)
  | .onWriteFailure .., w =>
    leads_withWriter fun h _ => moves_replace fun after ok => .onWriteFailure ok
  | .writerHandle .., w => leads_withWriter fun h _ => moves_putHandle
  | .execute context task, w => by
    rw [Command.run]
    split
    next named => exact leads_modify_bind (Move.execute named).moves (leads_pure _)
    · exact leads_pure _
  | .currentContext, w | .contextTexts, w => leads_get_bind (leads_pure _)
  | .contents f, w => by
    apply leads_get_bind
    split <;> exact leads_pure _
  | .held f, w => by
    apply leads_get_bind
    split
    · exact leads_pure _
    · exact leads_get_bind (leads_pure _)
  | .adjust f data max directives, w => by
    apply leads_get_bind
    split
    · exact leads_pure _
    next b label m found =>
      exact leads_modify_bind (Move.adjust _ (World.backend_of_memory? found)).moves (leads_pure _)
  | .require what c, w => by
    apply leads_bind (moves_command received c w)
    intro reply after _
    split
    · exact leads_throw _
    · exact leads_pure _
  | .shutDown origin, w => leads_modify_bind (Move.shutDown origin).moves (leads_pure _)
  | .panic message, w => leads_note_bind Move.panicking.moves (leads_throw _)

theorem moves_runAll (received : Bytes) : (body : List Command) → (w : World) →
    Leads Moves (runAll received body) w
  | [], w => leads_pure _
  | c :: rest, w => by
    apply leads_bind (moves_command received c w)
    intro reply after _
    apply leads_note_bind (Move.ran c reply).moves
    exact moves_runAll received rest _

end

end PinnedFile
