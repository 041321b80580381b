/-
  PinnedFile.Proofs.Copying.Deliveries

  What the deliveries of the copying come to.

  Between two tasks the copying is in one of three stances: it reads, or it waits for the
  queue to drain, or it has come to the end and closed both files.  A fourth is that a read
  has failed, after which no other is started.  Whatever is delivered takes it from one of
  them to one of them, and no callback panics on the way.
-/

import PinnedFile.Proofs.Copying.Stances

namespace PinnedFile.Copying

open Run

/-- The stances in which the copying is between two tasks. -/
inductive Between (isSmooth : Bool) : Intake → Outlet → Prop where
  /-- A read is under way. -/
  | reading : Between isSmooth { busy := true, counted := true } {}
  /-- Reading is paused, and goes on once the queue has drained. -/
  | waiting : Between isSmooth { paused := true } { waits := true, extra := true }
  /-- The source has ended, and both files were closed. -/
  | finished : Between isSmooth { ended := true, closed := true } { closed := true }
  /-- A read has failed. -/
  | stalled (troubled : isSmooth = false) : Between isSmooth {} {}

/-- Where the copying stands between two tasks. -/
def Pauses (setting : Setting) (w : World) : Prop :=
  ∃ intake outlet, Between setting.isSmooth intake outlet ∧ InTask setting intake outlet [] w

variable {setting : Setting} {intake intake' : Intake} {outlet outlet' : Outlet}
  {unsent bytes : Bytes} {w after : World} {owner : ContextId} {s t : Handle} {job : Job}
  {outcome : Outcome} {P : World → Prop}

/-! ## Callbacks that are called -/

theorem InTask.settle (stands : InTask setting intake outlet unsent w) (handles : List HandleId) :
    InTask setting intake outlet unsent ({ w with held := handles } : World).sweep := by
  rw [(stands.hold handles).sweep]
  exact stands.hold handles

/-- The chunk in hand is handed to the data listener. -/
theorem returns_tellData (stands : InTask setting {} {} bytes w)
    (most : bytes.length ≤ chunkSize) :
    Returns (fun _ after => HasWritten setting after) (tellData sourceHandle bytes) w := by
  obtain ⟨r, stream, reader⟩ := stands.reader?
  obtain ⟨g, listens, always⟩ := reader.data rfl rfl
  have found : (w.reader? sourceHandle >>= Reader.data) = some g := by
    rw [stream]
    exact listens
  have called : InTask setting {} {} bytes
      (w.modifyReader sourceHandle ({ · with data := some g.called })) :=
    stands.modifyReader (fun r reader => { reader with
      data := fun _ _ => ⟨g.called, rfl, always.called⟩ }) rfl rfl nofun
  rw [tellData]
  apply returns_get_bind
  rw [found]
  refine returns_modify_bind (returns_note_bind (returns_holding ?_))
  rw [always.body]
  have noted := called.record (e := .data sourceHandle g.listener.tag bytes) trivial trivial
  refine (returns_onChunk (noted.hold _) most).mono ?_
  rintro _ after (reads | waits)
  · exact .inl (reads.settle _)
  · exact .inr (waits.settle _)

theorem returns_tellEnd (stands : InTask setting { ended := true } {} [] w) :
    Returns (fun _ after => HasEnded setting after) (tellEnd sourceHandle) w := by
  obtain ⟨r, stream, reader⟩ := stands.reader?
  obtain ⟨g, listens, always⟩ := reader.ending rfl rfl
  have found : (w.reader? sourceHandle >>= Reader.ending) = some g := by
    rw [stream]
    exact listens
  have called : InTask setting { ended := true } {} []
      (w.modifyReader sourceHandle ({ · with ending := some g.called })) :=
    stands.modifyReader (fun r reader => { reader with
      ending := fun _ _ => ⟨g.called, rfl, always.called⟩ }) rfl rfl nofun
  rw [tellEnd]
  apply returns_get_bind
  rw [found]
  refine returns_modify_bind (returns_note_bind (returns_holding ?_))
  rw [always.body]
  have noted := called.record (e := .ended sourceHandle g.listener.tag) trivial trivial
  exact (returns_onEnd (noted.hold _)).mono fun _ after ends => ends.settle _

/-- If nothing waits for the queue to drain, nobody is told that it has. -/
theorem returns_tellDrained_idle (stands : InTask setting intake outlet unsent w)
    (idle : outlet.waits = false) :
    Returns (fun _ after => InTask setting intake outlet unsent after)
      (tellDrained destinationHandle) w := by
  obtain ⟨v, stream, writer⟩ := stands.writer?
  have none : v.drain = none := by
    have drain := writer.drain
    rwa [idle, if_neg Bool.false_ne_true, Option.map_eq_none_iff] at drain
  have found : (w.writer? destinationHandle >>= Writer.drain) = Option.none := by
    rw [stream]
    exact none
  rw [tellDrained]
  apply returns_get_bind
  rw [found]
  exact returns_pure stands

/-- A queue that has drained is not full. -/
theorem IsDestination.drained (destination : IsDestination owner outlet t)
    (low : t.outstanding ≤ queueMax / 2) :
    IsDestination owner { outlet with extra := false } t := by
  obtain ⟨v, made, writer⟩ := destination.stream
  exact { destination with
    room := low.trans_lt (show queueMax / 2 < queueMax by decide)
    stream := ⟨v, made, { writer with }⟩ }

theorem InTask.clearDrain
    (stands : InTask setting { paused := true } { waits := true, extra := true } [] w)
    (drained : w.hasDrained destinationHandle = true) :
    InTask setting { paused := true } {} [] (w.clearDrain destinationHandle) := by
  obtain ⟨s, t, handles, source, destination⟩ := stands.handles
  have low : t.outstanding ≤ queueMax / 2 := by
    rw [World.hasDrained, handles] at drained
    obtain ⟨v, made, writer⟩ := destination.stream
    simpa [destinationHandle, made, writer.lowwater] using drained
  have few := stands.of_handles handles source (destination.drained low) stands.held
  exact few.modifyWriter (fun v writer => { writer with drain := rfl }) rfl rfl rfl (by simp)

/-- If the queue has drained reading goes on. -/
theorem returns_tellDrained_waiting
    (stands : InTask setting { paused := true } { waits := true, extra := true } [] w) :
    Returns (fun _ after => Pauses setting after) (tellDrained destinationHandle) w := by
  obtain ⟨v, stream, writer⟩ := stands.writer?
  obtain ⟨wait, waits, body⟩ := Option.map_eq_some_iff.mp writer.drain
  have found : (w.writer? destinationHandle >>= Writer.drain) = some wait := by
    rw [stream]
    exact waits
  rw [tellDrained]
  apply returns_get_bind
  rw [found]
  dsimp only
  split
  next drained =>
    refine returns_modify_bind (returns_note_bind (returns_holding ?_))
    rw [body]
    have noted := (stands.clearDrain drained).record
      (e := .drained destinationHandle wait.id wait.handler.tag) trivial trivial
    exact (returns_onDrained (noted.hold _) rfl).mono fun _ after reads =>
      ⟨_, _, .reading, reads.settle _⟩
  · exact returns_pure ⟨_, _, .waiting, stands⟩

/-! ## Failures that are told -/

/-- A failure that nobody listens for is noted. -/
theorem returns_tellSink {h : HandleId} {error : FileError}
    (stands : InTask setting intake outlet unsent w) (troubled : setting.isSmooth = false) :
    Returns (fun _ after => InTask setting intake outlet unsent after) (tellSink h error) w := by
  rw [tellSink]
  refine returns_get_bind ?_
  split
  · exact returns_pure stands
  · exact returns_note (stands.recordAside trivial fun smooth =>
      absurd smooth (Bool.eq_false_iff.mp troubled))

/-- The listener for failures does nothing. -/
theorem returns_onFailure {tag : String} {h : HandleId} {error : FileError}
    {handles : List HandleId} (stands : InTask setting intake outlet unsent w)
    (troubled : setting.isSmooth = false) :
    Returns (fun _ after => InTask setting intake outlet unsent after)
      (note (.failed h tag error) >>= fun _ => holding handles (runAll [] onFailure)) w := by
  have noted : InTask setting intake outlet unsent (w.record (.failed h tag error)) :=
    stands.recordAside trivial fun smooth => absurd smooth (Bool.eq_false_iff.mp troubled)
  exact returns_note_bind (returns_holding (returns_nil ((noted.hold _).settle _)))

theorem returns_tellReadFailure {error : FileError}
    (stands : InTask setting intake outlet unsent w) (troubled : setting.isSmooth = false) :
    Returns (fun _ after => InTask setting intake outlet unsent after)
      (tellReadFailure sourceHandle error) w := by
  obtain ⟨r, stream, reader⟩ := stands.reader?
  rw [tellReadFailure]
  refine returns_get_bind ?_
  split
  · exact returns_tellSink stands troubled
  next g listens =>
    rw [stream] at listens
    have always := reader.failure g listens
    rw [always.body]
    refine returns_modify_bind (returns_onFailure (stands.modifyReader (fun r reader => ?_) rfl rfl
      stands.held) troubled)
    exact { reader with failure := fun g' same => Option.some.inj same ▸ always.called }

theorem returns_tellWriteFailure {error : FileError}
    (stands : InTask setting intake outlet unsent w) (troubled : setting.isSmooth = false) :
    Returns (fun _ after => InTask setting intake outlet unsent after)
      (tellWriteFailure destinationHandle error) w := by
  obtain ⟨v, stream, writer⟩ := stands.writer?
  rw [tellWriteFailure]
  refine returns_get_bind ?_
  split
  · exact returns_tellSink stands troubled
  next g listens =>
    rw [stream] at listens
    have always := writer.failure g listens
    rw [always.body]
    refine returns_modify_bind (returns_onFailure (stands.modifyWriter (fun v writer => ?_) rfl rfl
      rfl stands.held) troubled)
    exact { writer with failure := fun g' same => Option.some.inj same ▸ always.called }

/-! ## Operations that are completed -/

/-- Nothing fails where nothing goes wrong. -/
abbrev Setting.GoesWell (setting : Setting) (outcome : Outcome) : Prop :=
  setting.isSmooth = true → ∃ bytes, outcome = .ok bytes

theorem Setting.GoesWell.troubled {error : IoError} (well : setting.GoesWell (.error error)) :
    setting.isSmooth = false := by
  refine Bool.eq_false_iff.mpr fun smooth => ?_
  obtain ⟨bytes, same⟩ := well smooth
  cases same

theorem IsDestination.releasing {c : Completion} (destination : IsDestination owner outlet t)
    (free : outlet.full = false) : IsDestination owner outlet (t.releasing c) where
  owner := destination.owner
  backend := destination.backend
  closed := destination.closed
  full full := by
    rw [free] at full
    cases full
  room := Nat.lt_of_le_of_lt (Nat.sub_le _ _) destination.room
  stream := destination.stream

/-- The read that was in flight is so no more. -/
theorem InTask.releasing_chunk
    (stands : InTask setting { busy := true, counted := true } {} [] w) :
    InTask setting { busy := true } {} [] (w.modifyHandle sourceHandle (·.releasing .chunk)) :=
  stands.modifySource (fun s source => source.counting (by rw [source.inFlight]; rfl)) nofun

theorem InTask.completing_chunk
    (stands : InTask setting { busy := true, counted := true } {} [] w)
    (own : job.IsChunkOf sourceHandle) :
    InTask setting { busy := true } {} bytes (w.completing job (.ok bytes)) := by
  rcases job with ⟨id, h, transfer, c⟩
  obtain ⟨rfl, rfl⟩ := own
  exact stands.releasing_chunk.record_chunk ⟨rfl, rfl⟩

theorem InTask.completing_failedChunk {error : IoError}
    (stands : InTask setting { busy := true, counted := true } {} [] w)
    (own : job.IsChunkOf sourceHandle) (well : setting.GoesWell (.error error)) :
    InTask setting { busy := true } {} [] (w.completing job (.error error)) := by
  rcases job with ⟨id, h, transfer, c⟩
  obtain ⟨rfl, rfl⟩ := own
  exact stands.releasing_chunk.record_completed rfl well

theorem InTask.completing_source (stands : InTask setting intake outlet unsent w)
    (own : job.handle = sourceHandle) (light : job.completion.inFlight = 0)
    (other : job.completion ≠ .chunk) (well : setting.GoesWell outcome) :
    InTask setting intake outlet unsent (w.completing job outcome) := by
  have released : InTask setting intake outlet unsent
      (w.modifyHandle job.handle (·.releasing job.completion)) := by
    rw [own]
    exact stands.modifySource
      (fun s source => source.counting (by rw [light, source.inFlight]; rfl)) stands.held
  have nothing : (Event.completed job outcome).IsNoChunk sourceHandle := fun chunk => other chunk.2
  exact released.record_completed nothing.chunk? well

theorem InTask.completing_destination (stands : InTask setting intake outlet unsent w)
    (free : outlet.full = false) (own : job.handle = destinationHandle)
    (well : setting.GoesWell outcome) :
    InTask setting intake outlet unsent (w.completing job outcome) := by
  have released : InTask setting intake outlet unsent
      (w.modifyHandle job.handle (·.releasing job.completion)) := by
    rw [own]
    exact stands.modifyDestination (fun t destination => destination.releasing free) stands.held
  have nothing : (Event.completed job outcome).IsNoChunk sourceHandle := fun chunk => by
    have same : destinationHandle = sourceHandle := own.symm.trans chunk.1
    cases same
  exact released.record_completed nothing.chunk? well

/-- An outcome is announced: the operation is completed, and the client is told. -/
theorem returns_announce {P Q : World → Prop}
    (told : Returns (fun _ after => P after) (tell job outcome) (w.completing job outcome))
    (noted : ∀ after, P after → Q (after.record (.delivered job.id))) :
    Returns (fun _ after => Q after) (announce job outcome) w := by
  have announced : Returns (fun _ after => Q after)
      (tell job outcome >>= fun _ => note (.delivered job.id)) (w.completing job outcome) :=
    returns_bind told fun _ after holds => returns_note (noted after holds)
  obtain ⟨_, after, ends, holds⟩ := announced
  exact ⟨_, after, (exec_announce job outcome).trans ends, holds⟩

/-- Where the copying stands when a delivery is announced.  After a chunk it may be idle, until
    the stream goes on. -/
def Announced (setting : Setting) (job : Job) (outcome : Outcome) (w : World) : Prop :=
  Pauses setting w ∨
  (job.completion = .chunk ∧ (∃ first more, outcome = .ok (first :: more)) ∧
    InTask setting {} {} [] w)

theorem returns_announce_chunk (own : job.IsChunkOf sourceHandle)
    (stands : InTask setting { busy := true, counted := true } {} [] w)
    (most : bytes.length ≤ chunkSize) :
    Returns (fun _ after => Announced setting job (.ok bytes) after) (announce job (.ok bytes))
      w := by
  have completed : InTask setting { busy := true } {} bytes (w.completing job (.ok bytes)) :=
    stands.completing_chunk own
  rcases job with ⟨id, h, transfer, c⟩
  obtain ⟨rfl, rfl⟩ := own
  have idle : InTask setting {} {} bytes ((w.completing ⟨id, sourceHandle, transfer, .chunk⟩
      (.ok bytes)).modifyReader sourceHandle ({ · with busy := false })) :=
    completed.modifyReader (fun r reader => { reader with busy := rfl }) rfl rfl nofun
  rcases bytes with _ | ⟨first, more⟩
  · -- a read that finds nothing has found the end
    have ended : InTask setting { ended := true } {} [] (World.modifyReader _ sourceHandle
        ({ · with ended := true })) :=
      idle.modifyReader (fun r reader => { reader with ended := rfl }) rfl rfl nofun
    refine returns_announce (P := HasEnded setting) ?_
      fun after stands => .inl ⟨_, _, .finished, stands.record trivial trivial⟩
    exact returns_modify_bind (returns_modify_bind (returns_tellEnd ended))
  · have read : InTask setting {} {} (first :: more) (World.modifyReader _ sourceHandle
        fun r => { r with position := r.position + (first :: more).length }) :=
      idle.modifyReader (fun r reader => { reader with }) rfl rfl nofun
    refine returns_announce (P := HasWritten setting) ?_ ?_
    · exact returns_modify_bind (returns_modify_bind (returns_tellData read most))
    · rintro after (reads | waits)
      · exact .inr ⟨rfl, ⟨first, more, rfl⟩, reads.record trivial trivial⟩
      · exact .inl ⟨_, _, .waiting, waits.record trivial trivial⟩

/-- After a read that has failed no other is under way. -/
theorem returns_announce_failedChunk {error : IoError} (own : job.IsChunkOf sourceHandle)
    (stands : InTask setting { busy := true, counted := true } {} [] w)
    (well : setting.GoesWell (.error error)) :
    Returns (fun _ after => Announced setting job (.error error) after)
      (announce job (.error error)) w := by
  have completed := stands.completing_failedChunk own well
  rcases job with ⟨id, h, transfer, c⟩
  obtain ⟨rfl, rfl⟩ := own
  have idle : InTask setting {} {} [] ((w.completing ⟨id, sourceHandle, transfer, .chunk⟩
      (.error error)).modifyReader sourceHandle ({ · with busy := false })) :=
    completed.modifyReader (fun r reader => { reader with busy := rfl }) rfl rfl nofun
  exact returns_announce (P := fun after => InTask setting {} {} [] after)
    (returns_modify_bind (returns_tellReadFailure idle well.troubled))
    fun after stands => .inl ⟨_, _, .stalled well.troubled, stands.record trivial trivial⟩

/-- The end of a write may be the moment at which the queue has drained. -/
theorem returns_tellDrained (between : Between setting.isSmooth intake outlet)
    (stands : InTask setting intake outlet [] w) :
    Returns (fun _ after => Pauses setting after) (tellDrained destinationHandle) w := by
  -- somebody waits for the queue in one stance only
  cases between with
  | reading => exact (returns_tellDrained_idle stands rfl).mono fun _ _ stands =>
      ⟨_, _, .reading, stands⟩
  | waiting => exact returns_tellDrained_waiting stands
  | finished => exact (returns_tellDrained_idle stands rfl).mono fun _ _ stands =>
      ⟨_, _, .finished, stands⟩
  | stalled troubled => exact (returns_tellDrained_idle stands rfl).mono fun _ _ stands =>
      ⟨_, _, .stalled troubled, stands⟩

theorem returns_announce_send {n : Nat} (handle : job.handle = destinationHandle)
    (send : job.completion = .send n) (between : Between setting.isSmooth intake outlet)
    (stands : InTask setting intake outlet [] w) (well : setting.GoesWell outcome) :
    Returns (fun _ after => Announced setting job outcome after) (announce job outcome) w := by
  have free : outlet.full = false := by cases between <;> rfl
  have completed : InTask setting intake outlet [] (w.completing job outcome) :=
    stands.completing_destination free handle well
  rcases job with ⟨id, h, transfer, c⟩
  obtain rfl : h = destinationHandle := handle
  obtain rfl : c = .send n := send
  refine returns_announce (P := Pauses setting) ?_
    fun after ⟨_, _, between, stands⟩ => .inl ⟨_, _, between, stands.record trivial trivial⟩
  show Returns _ (finishSend destinationHandle outcome) _
  rcases outcome with error | bytes
  · exact returns_bind (returns_tellWriteFailure completed well.troubled) fun _ _ told =>
      returns_tellDrained between told
  · exact returns_tellDrained between completed

/-- A closed handle has no registrations any more. -/
theorem InTask.unregistered_source (stands : HasEnded setting w) :
    HasEnded setting (w.modifyHandle sourceHandle Handle.unregistered) :=
  stands.modifySource (fun s source => by
    obtain ⟨r, made, reader⟩ := source.stream
    exact ⟨source.owner, source.backend, source.closed, source.inFlight, r.unregistered,
      by rw [Handle.unregistered, made]; rfl,
      { reader with data := nofun, ending := nofun, failure := nofun }⟩) nofun

theorem InTask.unregistered_destination (stands : HasEnded setting w) :
    HasEnded setting (w.modifyHandle destinationHandle Handle.unregistered) :=
  stands.modifyDestination (fun t destination => by
    obtain ⟨v, made, writer⟩ := destination.stream
    exact ⟨destination.owner, destination.backend, destination.closed, nofun, destination.room,
      v.unregistered, by rw [Handle.unregistered, made]; rfl,
      { writer with drain := rfl, failure := nofun }⟩) nofun

theorem returns_announce_close_source (handle : job.handle = sourceHandle)
    (close : job.completion = .close none)
    (stands : HasEnded setting w) (well : setting.GoesWell outcome) :
    Returns (fun _ after => Announced setting job outcome after) (announce job outcome) w := by
  have completed : HasEnded setting (w.completing job outcome) :=
    stands.completing_source handle (by rw [close]; rfl) (by rw [close]; nofun) well
  rcases job with ⟨id, h, transfer, c⟩
  obtain rfl : h = sourceHandle := handle
  obtain rfl : c = .close none := close
  refine returns_announce (P := HasEnded setting) (returns_modify_bind ?_)
    fun after stands => .inl ⟨_, _, .finished, stands.record trivial trivial⟩
  rcases outcome with error | bytes
  · exact returns_tellSink completed.unregistered_source well.troubled
  · exact returns_pure completed.unregistered_source

theorem returns_announce_close_destination {handler : Handler}
    (handle : job.handle = destinationHandle) (close : job.completion = .close (some handler))
    (tag : handler.tag = closedTag) (body : handler.body = [])
    (stands : HasEnded setting w) (well : setting.GoesWell outcome) :
    Returns (fun _ after => Announced setting job outcome after) (announce job outcome) w := by
  have completed : HasEnded setting (w.completing job outcome) :=
    stands.completing_destination rfl handle well
  rcases job with ⟨id, h, transfer, c⟩
  obtain rfl : h = destinationHandle := handle
  obtain rfl : c = .close (some handler) := close
  have called : HasEnded setting (World.record _ (.handled id .close handler.tag
      (plainResult .close outcome))) :=
    completed.unregistered_destination.recordAside trivial fun smooth => by
      obtain ⟨bytes, rfl⟩ := well smooth
      exact ⟨rfl, tag, [], rfl⟩
  refine returns_announce (P := HasEnded setting) (returns_modify_bind ?_)
    fun after stands => .inl ⟨_, _, .finished, stands.record trivial trivial⟩
  show Returns _ (callHandler ⟨id, destinationHandle, transfer, .close (some handler)⟩ handler
    (plainResult .close outcome)) _
  rw [callHandler, body]
  refine returns_note_bind (returns_bind (returns_nil called) fun _ after stands => ?_)
  exact returns_modify (stands.settle [destinationHandle])

/-! ## Deliveries -/

/-- A stream that is busy, or closed, does not start a read. -/
theorem idleReader?_eq_none (stands : Stands setting intake outlet unsent w)
    (engaged : intake.busy = true ∨ intake.closed = true) :
    w.idleReader? sourceHandle = none := by
  obtain ⟨s, known, source⟩ := stands.source?
  obtain ⟨r, made, reader⟩ := source.stream
  rw [World.idleReader?, known]
  rcases engaged with busy | closed
  · simp [made, reader.busy, busy]
  · simp [source.closed, closed]

theorem returns_startRead_engaged (stands : InTask setting intake outlet unsent w)
    (engaged : intake.busy = true ∨ intake.closed = true) (holds : P w) :
    Returns (fun _ after => P after) (startRead sourceHandle) w := by
  rw [startRead]
  refine returns_get_bind ?_
  rw [idleReader?_eq_none stands.toStands engaged]
  exact returns_pure holds

/-- After a chunk the stream goes on if it is idle. -/
theorem returns_readOn (announced : Announced setting job outcome w)
    (own : job.completion = .chunk → job.handle = sourceHandle) :
    Returns (fun _ after => Pauses setting after) (readOn job outcome) w := by
  rcases job with ⟨id, h, transfer, c⟩
  rcases announced with ⟨intake, outlet, between, stands⟩ | ⟨chunk, ⟨first, more, rfl⟩, stands⟩
  · have stays : Pauses setting w := ⟨intake, outlet, between, stands⟩
    unfold readOn
    split
    next chunk =>
      obtain rfl : h = sourceHandle := own chunk
      refine returns_get_bind ?_
      split
      next wanted =>
        -- the callback itself has started a read, or has closed the source
        cases between with
        | reading => exact returns_startRead_engaged stands (.inl rfl) stays
        | waiting =>
          rw [stands.wantsRead rfl rfl] at wanted
          cases wanted
        | finished => exact returns_startRead_engaged stands (.inr rfl) stays
        | stalled => exact (returns_startRead stands).mono fun _ after reads =>
            ⟨_, _, .reading, reads⟩
      · exact returns_pure stays
    · exact returns_pure stays
  · obtain rfl : c = .chunk := chunk
    obtain rfl : h = sourceHandle := own rfl
    have wanted : w.wantsRead sourceHandle = true := stands.wantsRead rfl rfl
    show Returns _ (do if (← get).wantsRead sourceHandle then startRead sourceHandle) w
    refine returns_get_bind ?_
    rw [if_pos wanted]
    exact (returns_startRead stands).mono fun _ after reads => ⟨_, _, .reading, reads⟩

/-- A close that waits may be queued. -/
theorem returns_closeIfQuiet {h : HandleId} (known : h = sourceHandle ∨ h = destinationHandle)
    (pauses : Pauses setting w) :
    Returns (fun _ after => Pauses setting after) (closeIfQuiet h) w := by
  obtain ⟨intake, outlet, between, stands⟩ := pauses
  have stays : Pauses setting w := ⟨intake, outlet, between, stands⟩
  rw [closeIfQuiet]
  refine returns_get_bind ?_
  split
  · exact returns_pure stays
  · split
    · split
      · exact returns_pure stays
      next waits =>
        refine returns_modify ⟨intake, outlet, between, InTask.submit ?_⟩
        rcases known with rfl | rfl
        · exact stands.modifySource (fun s source => { source with }) stands.held
        · exact stands.modifyDestination (fun t destination => { destination with }) stands.held
    · exact returns_pure stays

/-- What is announced is followed by the next read and by a close that waited. -/
theorem returns_deliver (here : w.OnOwner job.handle)
    (known : job.handle = sourceHandle ∨ job.handle = destinationHandle)
    (own : job.completion = .chunk → job.handle = sourceHandle)
    (announced : Returns (fun _ after => Announced setting job outcome after)
      (announce job outcome) w) :
    Returns (fun _ after => Pauses setting after) (deliver job outcome) w := by
  rw [Returns, exec_deliver here]
  exact returns_bind announced fun _ told announced =>
    returns_bind (returns_readOn announced own) fun _ read pauses =>
      returns_closeIfQuiet known pauses

end PinnedFile.Copying
