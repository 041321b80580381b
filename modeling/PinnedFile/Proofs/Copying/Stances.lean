/-
  PinnedFile.Proofs.Copying.Stances

  Where the copying stands, and what its commands do to that.

  A stance is what the two streams are doing, as far as the program depends on it: whether a
  read is under way, whether reading is paused, whether a callback waits for the queue to
  drain, which of the handles are closed.  Each command of the program is accepted in the
  stances in which it is given, and takes the world from one stance to the next.  All the
  while the chunks read so far are what was written so far, and what is still in hand.
-/

import PinnedFile.Copying
import PinnedFile.Proofs.Lifetime.References
import PinnedFile.Proofs.Returns
import PinnedFile.Proofs.Streams.Reading
import PinnedFile.Proofs.Streams.Sending

namespace PinnedFile.Copying

open Run

/-! ## Stances -/

/-- The handle of the file that is read, the first one opened. -/
def sourceHandle : HandleId := 0

/-- The handle of the file that is written, the second one opened. -/
def destinationHandle : HandleId := 1

/-- What the slots hold once both streams are there. -/
def bothSlots : List (Slot × SlotEntry) :=
  [(source, { handle := some sourceHandle, reader := some sourceHandle }),
   (destination, { handle := some destinationHandle, writer := some destinationHandle })]

/-- What is done once the queue has drained. -/
def onDrained : List Command := [.require "resume" (.resume source)]

/-- A listener that does nothing. -/
def onFailure : List Command := []

/-- What the read stream of the source is doing. -/
structure Intake where
  /-- A read is under way. -/
  busy : Bool := false
  /-- A read counts as in flight. -/
  counted : Bool := false
  paused : Bool := false
  ended : Bool := false
  closed : Bool := false
  /-- Nobody listens for chunks yet. -/
  deaf : Bool := false
  /-- Nobody listens for the end yet. -/
  endless : Bool := false

/-- Reading is paused, and no read is under way. -/
structure Intake.IsHeld (intake : Intake) : Prop where
  paused : intake.paused = true
  idle : intake.busy = false
  uncounted : intake.counted = false

/-- What the write stream of the destination is doing. -/
structure Outlet where
  /-- A callback waits for the queue to drain. -/
  waits : Bool := false
  /-- A chunk was written that may have filled the queue. -/
  extra : Bool := false
  /-- More is outstanding than at which the queue has drained. -/
  full : Bool := false
  closed : Bool := false

/-- What is outstanding is less than this.  A chunk is written only to a queue that is not full. -/
def Outlet.limit (outlet : Outlet) : Nat := if outlet.extra then queueMax + chunkSize else queueMax

/-- A listener that does the same on each call. -/
structure Always (body : List Command) (r : Registration) : Prop where
  calls : r.listener.calls = []
  each : r.listener.each = body

/-- A read stream that is doing what `intake` says. -/
structure IsReader (intake : Intake) (r : Reader) : Prop where
  size : r.chunkSize = chunkSize
  busy : r.busy = intake.busy
  paused : r.paused = intake.paused
  ended : r.ended = intake.ended
  data : intake.closed = false → intake.deaf = false → ∃ g, r.data = some g ∧ Always onChunk g
  ending : intake.closed = false → intake.endless = false →
    ∃ g, r.ending = some g ∧ Always onEnd g
  failure : ∀ g, r.failure = some g → Always onFailure g

/-- The handle of the source. -/
structure IsSource (owner : ContextId) (intake : Intake) (s : Handle) : Prop where
  owner : s.owner = owner
  backend : s.backend = 0
  closed : s.closed = intake.closed
  inFlight : s.inFlight = if intake.counted then 1 else 0
  stream : ∃ r, s.reader = some r ∧ IsReader intake r

/-- A write stream that is doing what `outlet` says. -/
structure IsWriter (outlet : Outlet) (v : Writer) : Prop where
  highwater : v.highwater = queueMax
  lowwater : v.lowwater = queueMax / 2
  drain : v.drain.map (·.handler.body) = if outlet.waits then some onDrained else none
  failure : ∀ g, v.failure = some g → Always onFailure g

/-- The handle of the destination. -/
structure IsDestination (owner : ContextId) (outlet : Outlet) (s : Handle) : Prop where
  owner : s.owner = owner
  backend : s.backend = 1
  closed : s.closed = outlet.closed
  full : outlet.full = true → queueMax / 2 < s.outstanding
  room : s.outstanding < outlet.limit
  stream : ∃ v, s.writer = some v ∧ IsWriter outlet v

/-- Less is outstanding on the destination than fills the queue and one chunk more, and while a
    callback waits for the queue to drain, reading is paused and no read is in flight. -/
structure Balanced (handles : List Handle) : Prop where
  bounded : ∀ t, handles[destinationHandle]? = some t → t.outstanding < queueMax + chunkSize
  held : ∀ t v, handles[destinationHandle]? = some t → t.writer = some v → v.drain ≠ none →
    ∃ s r, handles[sourceHandle]? = some s ∧ s.inFlight = 0 ∧ s.reader = some r ∧
      r.paused = true ∧ r.busy = false

/-! ## What goes well -/

/-- An operation of the copying: a read of the source, a write of the destination, or the
    close of either, the latter with the callback that completes the copying. -/
def IsOwn (a : Job) : Prop :=
  match a.completion with
  | .chunk => a.handle = sourceHandle ∧ ∃ position, a.transfer = .ofRead position chunkSize
  | .close none => a.handle = sourceHandle
  | .send _ => a.handle = destinationHandle
  | .close (some handler) =>
    a.handle = destinationHandle ∧ handler.tag = closedTag ∧ handler.body = []
  | _ => False

/-- An event of the copying, whatever goes wrong: what is accepted is an operation of it. -/
def IsProper : Event → Prop
  | .accepted a => IsOwn a
  | _ => True

/-- A reply to a command that was accepted. -/
def IsAccepted : Reply → Prop
  | .result (.ok _) | .flag _ => True
  | _ => False

/-- An event by which nothing goes wrong: no operation fails, and no command is refused. -/
def IsSmooth : Event → Prop
  | .accepted a => IsOwn a
  | .completed _ outcome => ∃ bytes, outcome = .ok bytes
  | .handled _ operation tag result =>
    operation = .close ∧ tag = closedTag ∧ ∃ bytes, result = .ok bytes
  | .ran _ reply => IsAccepted reply
  | .failed .. | .unheard .. | .panicking | .shutDown => False
  | _ => True

/-- An event by which nothing is accepted, called or completed. -/
def IsAside : Event → Prop
  | .accepted _ | .native .. | .completed .. => False
  | _ => True

/-! ## Worlds -/

/-- What the loop does not change while it copies. -/
structure Setting where
  /-- Nothing goes wrong, and nothing is shut down. -/
  isSmooth : Bool := true
  context : ContextId
  files : FileTree
  backends : List Backend
  exchanges : List Exchange

/-- A world in which the copying has come so far, all that was read being written but for
    `unsent`. -/
structure Stands (setting : Setting) (intake : Intake) (outlet : Outlet) (unsent : Bytes)
    (w : World) : Prop where
  slots : w.slots = bothSlots
  handles : ∃ s t, w.handles = [s, t] ∧ IsSource setting.context intake s ∧
    IsDestination setting.context outlet t
  held : outlet.waits = true → intake.IsHeld
  jobs : setting.isSmooth = true → w.jobs.isOpen = true
  tasks : setting.isSmooth = true → w.tasks.isOpen = true
  deliveries : ∀ task ∈ w.tasks.items, ∃ job outcome, task = .deliver job outcome
  calm : w.panicNote = none
  files : w.files = setting.files
  backends : w.backends = setting.backends
  exchanges : w.exchanges = setting.exchanges
  proper : ∀ e ∈ w.history, IsProper e.event
  smooth : setting.isSmooth = true → ∀ e ∈ w.history, IsSmooth e.event
  balanced : ∀ e ∈ w.history, Balanced e.handles
  copied : bytesRead sourceHandle w.history = dataOf (w.sends destinationHandle) ++ unsent

/-- The same in the midst of a task. -/
structure InTask (setting : Setting) (intake : Intake) (outlet : Outlet) (unsent : Bytes)
    (w : World) : Prop extends Stands setting intake outlet unsent w where
  here : w.context = some setting.context

variable {setting : Setting} {intake intake' : Intake} {outlet outlet' : Outlet}
  {unsent received : Bytes} {w after : World} {owner : ContextId} {s t : Handle} {r : Reader}
  {v : Writer} {e : Event}

/-! ## What a stance says -/

theorem Always.body {body : List Command} {g : Registration} (always : Always body g) :
    g.body = body := by
  rw [Registration.body, Listener.bodyAt, always.calls, always.each]
  rfl

theorem Always.called {body : List Command} {g : Registration} (always : Always body g) :
    Always body g.called := ⟨always.calls, always.each⟩

theorem Stands.slot_source (stands : Stands setting intake outlet unsent w) :
    w.slot source = { handle := some sourceHandle, reader := some sourceHandle } := by
  rw [World.slot, stands.slots]
  rfl

theorem Stands.slot_destination (stands : Stands setting intake outlet unsent w) :
    w.slot destination =
      { handle := some destinationHandle, writer := some destinationHandle } := by
  rw [World.slot, stands.slots]
  rfl

theorem Stands.isLive_source (stands : Stands setting intake outlet unsent w) :
    w.isLive sourceHandle = true :=
  World.isLive_iff.mpr (World.refers_of_slot (f := source) (by rw [stands.slot_source]))

theorem Stands.isLive_destination (stands : Stands setting intake outlet unsent w) :
    w.isLive destinationHandle = true :=
  World.isLive_iff.mpr (World.refers_of_slot (f := destination) (by rw [stands.slot_destination]))

theorem Stands.source? (stands : Stands setting intake outlet unsent w) :
    ∃ s, w.handles[sourceHandle]? = some s ∧ IsSource setting.context intake s := by
  obtain ⟨s, t, handles, source, -⟩ := stands.handles
  exact ⟨s, by rw [handles]; rfl, source⟩

theorem Stands.destination? (stands : Stands setting intake outlet unsent w) :
    ∃ t, w.handles[destinationHandle]? = some t ∧ IsDestination setting.context outlet t := by
  obtain ⟨s, t, handles, -, destination⟩ := stands.handles
  exact ⟨t, by rw [handles]; rfl, destination⟩

theorem Stands.reader? (stands : Stands setting intake outlet unsent w) :
    ∃ r, w.reader? sourceHandle = some r ∧ IsReader intake r := by
  obtain ⟨s, known, source⟩ := stands.source?
  obtain ⟨r, made, reader⟩ := source.stream
  exact ⟨r, by rw [World.reader?, known, Option.bind_some, made], reader⟩

theorem Stands.writer? (stands : Stands setting intake outlet unsent w) :
    ∃ v, w.writer? destinationHandle = some v ∧ IsWriter outlet v := by
  obtain ⟨t, known, destination⟩ := stands.destination?
  obtain ⟨v, made, writer⟩ := destination.stream
  exact ⟨v, by rw [World.writer?, known, Option.bind_some, made], writer⟩

/-- Nothing is ever gone. -/
theorem Stands.sweep (stands : Stands setting intake outlet unsent w) : w.sweep = w := by
  refine World.sweep_of_swept fun h s known gone => ?_
  -- there are two handles, and each is in its slot as long as the copying goes on
  obtain ⟨s', t', handles, -⟩ := stands.handles
  have there : h < 2 := by
    have found := (List.getElem?_eq_some_iff.mp known).1
    rwa [handles] at found
  have live : w.isLive h = true := by
    rcases h with _ | _ | h
    · exact stands.isLive_source
    · exact stands.isLive_destination
    · exact absurd there (Nat.not_lt_of_le (Nat.le_add_left 2 h))
  rw [gone] at live
  cases live

theorem InTask.checkStream_source (stands : InTask setting intake outlet unsent w)
    (opened : intake.closed = false) :
    ∃ s, w.handles[sourceHandle]? = some s ∧ IsSource setting.context intake s ∧
      w.checkStream sourceHandle = .ok s := by
  obtain ⟨s, known, source⟩ := stands.source?
  refine ⟨s, known, source, ?_⟩
  rw [World.checkStream, if_pos stands.isLive_source]
  exact World.check_eq_ok_iff.mpr
    ⟨known, stands.here.trans (congrArg some source.owner.symm), source.closed.trans opened⟩

theorem InTask.checkStream_destination (stands : InTask setting intake outlet unsent w)
    (opened : outlet.closed = false) :
    ∃ t, w.handles[destinationHandle]? = some t ∧ IsDestination setting.context outlet t ∧
      w.checkStream destinationHandle = .ok t := by
  obtain ⟨t, known, destination⟩ := stands.destination?
  refine ⟨t, known, destination, ?_⟩
  rw [World.checkStream, if_pos stands.isLive_destination]
  exact World.check_eq_ok_iff.mpr
    ⟨known, stands.here.trans (congrArg some destination.owner.symm),
      destination.closed.trans opened⟩

theorem Outlet.limit_le (outlet : Outlet) : outlet.limit ≤ queueMax + chunkSize := by
  unfold limit
  split
  · exact Nat.le_refl _
  · exact Nat.le_add_right _ _

/-- Every stance is balanced. -/
theorem Stands.balanced_handles (stands : Stands setting intake outlet unsent w) :
    Balanced w.handles := by
  obtain ⟨s, t, handles, source, destination⟩ := stands.handles
  rw [handles]
  refine ⟨fun t' known => ?_, fun t' v known made waits => ?_⟩
  · obtain rfl := Option.some.inj known
    exact destination.room.trans_le outlet.limit_le
  · obtain rfl := Option.some.inj known
    obtain ⟨v', made', writer⟩ := destination.stream
    obtain rfl := Option.some.inj (made.symm.trans made')
    have awaited : outlet.waits = true := by
      have drain := writer.drain
      split at drain
      next awaited => exact awaited
      · exact absurd (Option.map_eq_none_iff.mp drain) waits
    obtain ⟨r, there, reader⟩ := source.stream
    have held := stands.held awaited
    exact ⟨s, r, rfl, by rw [source.inFlight, held.uncounted]; rfl, there,
      reader.paused.trans held.paused, reader.busy.trans held.idle⟩

/-! ## Changes -/

/-- The handles are changed, and nothing else. -/
theorem InTask.withHandles (stands : InTask setting intake outlet unsent w)
    (source : IsSource setting.context intake' s)
    (destination : IsDestination setting.context outlet' t)
    (held : outlet'.waits = true → intake'.IsHeld) :
    InTask setting intake' outlet' unsent { w with handles := [s, t] } where
  slots := stands.slots
  handles := ⟨s, t, rfl, source, destination⟩
  held := held
  jobs := stands.jobs
  tasks := stands.tasks
  deliveries := stands.deliveries
  calm := stands.calm
  files := stands.files
  backends := stands.backends
  exchanges := stands.exchanges
  proper := stands.proper
  smooth := stands.smooth
  balanced := stands.balanced
  copied := stands.copied
  here := stands.here

theorem InTask.modifySource {f : Handle → Handle} (stands : InTask setting intake outlet unsent w)
    (source : ∀ s, IsSource setting.context intake s → IsSource setting.context intake' (f s))
    (held : outlet.waits = true → intake'.IsHeld) :
    InTask setting intake' outlet unsent (w.modifyHandle sourceHandle f) := by
  obtain ⟨s, t, handles, isSource, isDestination⟩ := stands.handles
  have changed : w.modifyHandle sourceHandle f = { w with handles := [f s, t] } := by
    rw [World.modifyHandle, handles]
    rfl
  rw [changed]
  exact stands.withHandles (source s isSource) isDestination held

theorem InTask.modifyDestination {f : Handle → Handle}
    (stands : InTask setting intake outlet unsent w)
    (destination : ∀ t, IsDestination setting.context outlet t →
      IsDestination setting.context outlet' (f t))
    (held : outlet'.waits = true → intake.IsHeld) :
    InTask setting intake outlet' unsent (w.modifyHandle destinationHandle f) := by
  obtain ⟨s, t, handles, isSource, isDestination⟩ := stands.handles
  have changed : w.modifyHandle destinationHandle f = { w with handles := [s, f t] } := by
    rw [World.modifyHandle, handles]
    rfl
  rw [changed]
  exact stands.withHandles isSource (destination t isDestination) held

theorem InTask.modifyReader {f : Reader → Reader} (stands : InTask setting intake outlet unsent w)
    (reader : ∀ r, IsReader intake r → IsReader intake' (f r))
    (closed : intake'.closed = intake.closed) (counted : intake'.counted = intake.counted)
    (held : outlet.waits = true → intake'.IsHeld) :
    InTask setting intake' outlet unsent (w.modifyReader sourceHandle f) := by
  refine stands.modifySource (fun s source => ?_) held
  obtain ⟨r, made, isReader⟩ := source.stream
  exact ⟨source.owner, source.backend, source.closed.trans closed.symm,
    counted ▸ source.inFlight, f r, by rw [made]; rfl, reader r isReader⟩

theorem InTask.modifyWriter {f : Writer → Writer} (stands : InTask setting intake outlet unsent w)
    (writer : ∀ v, IsWriter outlet v → IsWriter outlet' (f v))
    (closed : outlet'.closed = outlet.closed) (full : outlet'.full = outlet.full)
    (extra : outlet'.extra = outlet.extra) (held : outlet'.waits = true → intake.IsHeld) :
    InTask setting intake outlet' unsent (w.modifyWriter destinationHandle f) := by
  refine stands.modifyDestination (fun t destination => ?_) held
  obtain ⟨v, made, isWriter⟩ := destination.stream
  have limit : outlet'.limit = outlet.limit := by rw [Outlet.limit, Outlet.limit, extra]
  exact ⟨destination.owner, destination.backend, destination.closed.trans closed.symm,
    full ▸ destination.full, limit ▸ destination.room, f v, by rw [made]; rfl, writer v isWriter⟩

/-- Something is noted that is no native call. -/
theorem Stands.noting {unsent' : Bytes} (stands : Stands setting intake outlet unsent w)
    (proper : IsProper e) (smooth : setting.isSmooth = true → IsSmooth e)
    (noCall : e.exchange? = none) (copied : bytesRead sourceHandle (w.record e).history =
      dataOf ((w.record e).sends destinationHandle) ++ unsent') :
    Stands setting intake outlet unsent' (w.record e) where
  slots := stands.slots
  handles := stands.handles
  held := stands.held
  jobs := stands.jobs
  tasks := stands.tasks
  deliveries := stands.deliveries
  calm := stands.calm
  files := stands.files
  backends := stands.backends
  exchanges := by
    rw [← stands.exchanges, World.exchanges, World.record, List.filterMap_cons, noCall]
    rfl
  proper f listed := by
    rcases List.mem_cons.mp listed with rfl | before
    · exact proper
    · exact stands.proper f before
  smooth isSmooth f listed := by
    rcases List.mem_cons.mp listed with rfl | before
    · exact smooth isSmooth
    · exact stands.smooth isSmooth f before
  balanced f listed := by
    rcases List.mem_cons.mp listed with rfl | before
    · exact stands.balanced_handles
    · exact stands.balanced f before
  copied := copied

/-- Something is noted by which nothing is read or written. -/
theorem Stands.recordAside (stands : Stands setting intake outlet unsent w) (aside : IsAside e)
    (smooth : setting.isSmooth = true → IsSmooth e) :
    Stands setting intake outlet unsent (w.record e) := by
  cases e with
  | accepted | native | completed => cases aside
  | _ => exact stands.noting trivial smooth rfl ((bytesRead_cons_of_none rfl).trans stands.copied)

theorem InTask.recordAside (stands : InTask setting intake outlet unsent w) (aside : IsAside e)
    (smooth : setting.isSmooth = true → IsSmooth e) :
    InTask setting intake outlet unsent (w.record e) :=
  ⟨stands.toStands.recordAside aside smooth, stands.here⟩

/-- Something is noted by which nothing goes wrong, and nothing is read or written. -/
theorem InTask.record (stands : InTask setting intake outlet unsent w) (smooth : IsSmooth e)
    (aside : IsAside e) : InTask setting intake outlet unsent (w.record e) :=
  stands.recordAside aside fun _ => smooth

/-- An operation is accepted that is not a write. -/
theorem InTask.record_accepted {a : Job} (stands : InTask setting intake outlet unsent w)
    (own : IsOwn a) (other : a.completion.isSend = false) :
    InTask setting intake outlet unsent (w.record (.accepted a)) := by
  have same : (w.record (.accepted a)).sends destinationHandle = w.sends destinationHandle := by
    simp [World.sends, World.accepted, World.record, Event.accepted?, Job.IsSendOf, other]
  refine ⟨stands.toStands.noting own (fun _ => own) rfl ?_, stands.here⟩
  rw [same, ← stands.copied]
  exact bytesRead_cons_of_none rfl

/-- What was in hand is written. -/
theorem InTask.record_send {a : Job} (stands : InTask setting intake outlet a.data w)
    (send : a.IsSendOf destinationHandle) (own : IsOwn a) :
    InTask setting intake outlet [] (w.record (.accepted a)) := by
  have more : (w.record (.accepted a)).sends destinationHandle =
      w.sends destinationHandle ++ [a] := by
    simp [World.sends, World.accepted, World.record, Event.accepted?, send]
  refine ⟨stands.toStands.noting own (fun _ => own) rfl ?_, stands.here⟩
  rw [more, dataOf_append, dataOf_singleton, List.append_nil, ← stands.copied]
  exact bytesRead_cons_of_none rfl

/-- An operation is completed that has not read anything. -/
theorem InTask.record_completed {job : Job} {outcome : Outcome}
    (stands : InTask setting intake outlet unsent w)
    (nothing : (Event.completed job outcome).chunk? sourceHandle = none)
    (well : setting.isSmooth = true → ∃ bytes, outcome = .ok bytes) :
    InTask setting intake outlet unsent (w.record (.completed job outcome)) :=
  ⟨stands.toStands.noting trivial well rfl
    ((bytesRead_cons_of_none nothing).trans stands.copied), stands.here⟩

/-- A chunk has come to hand. -/
theorem InTask.record_chunk {job : Job} {bytes : Bytes} (stands : InTask setting intake outlet [] w)
    (own : job.IsChunkOf sourceHandle) :
    InTask setting intake outlet bytes (w.record (.completed job (.ok bytes))) := by
  refine ⟨stands.toStands.noting trivial (fun _ => ⟨bytes, rfl⟩) rfl ?_, stands.here⟩
  have found : (Event.completed job (.ok bytes)).chunk? sourceHandle = some bytes :=
    Event.chunk?_eq_some_iff.mpr ⟨job, own, rfl⟩
  rw [World.record, bytesRead, stands.copied, List.append_nil, found]
  rfl

theorem InTask.hold (stands : InTask setting intake outlet unsent w) (handles : List HandleId) :
    InTask setting intake outlet unsent { w with held := handles } :=
  { stands with }

/-- The same handles are seen in another way. -/
theorem InTask.of_handles (stands : InTask setting intake outlet unsent w)
    (handles : w.handles = [s, t]) (source : IsSource setting.context intake' s)
    (destination : IsDestination setting.context outlet' t)
    (held : outlet'.waits = true → intake'.IsHeld) :
    InTask setting intake' outlet' unsent w := by
  have same : { w with handles := [s, t] } = w := by rw [← handles]
  rw [← same]
  exact stands.withHandles source destination held

/-- It is forgotten that the queue is full.  Only the callback that fills it knows, for with the
    next completion it may have drained. -/
theorem InTask.forget_full (stands : InTask setting intake outlet unsent w) :
    InTask setting intake { outlet with full := false } unsent w := by
  obtain ⟨s, t, handles, source, destination⟩ := stands.handles
  obtain ⟨v, made, writer⟩ := destination.stream
  exact stands.of_handles handles source { destination with
    full := nofun
    stream := ⟨v, made, { writer with }⟩ } stands.held

/-- A job is put behind those that wait for a worker, unless the workers are shut down. -/
theorem InTask.submit {job : Job} (stands : InTask setting intake outlet unsent w) :
    InTask setting intake outlet unsent (w.submit job) := by
  by_cases alive : w.jobs.isOpen = true
  · rw [World.submit, show w.jobs.push job = (true, _) from if_pos alive]
    exact InTask.record (e := .submitted job.id) { stands with } trivial trivial
  · rw [World.submit, show w.jobs.push job = (false, _) from if_neg alive]
    exact stands

/-- An operation of the copying is accepted that is not a write, and it counts. -/
theorem InTask.accept {h : HandleId} {transfer : Transfer} {c : Completion}
    (stands : InTask setting intake outlet unsent (w.modifyHandle h (·.taking c)))
    (own : IsOwn ⟨w.nextOperation, h, transfer, c⟩) (other : c.isSend = false) :
    InTask setting intake outlet unsent (w.accept h transfer c).2 := by
  have accepted := stands.record_accepted own other
  exact { accepted with }

/-- The counters of the source are changed. -/
theorem IsSource.counting {outstanding inFlight : Nat} {counted : Bool}
    (source : IsSource owner intake s) (counts : inFlight = if counted then 1 else 0) :
    IsSource owner { intake with counted } { s with outstanding, inFlight } := by
  obtain ⟨r, made, reader⟩ := source.stream
  exact ⟨source.owner, source.backend, source.closed, counts, r, made, { reader with }⟩

theorem IsSource.taking {c : Completion} (source : IsSource owner intake s)
    (idle : c.inFlight = 0) : IsSource owner intake (s.taking c) :=
  source.counting (by rw [idle, Nat.add_zero, source.inFlight])

theorem IsDestination.taking {c : Completion} (destination : IsDestination owner outlet t)
    (light : c.outstanding = 0) : IsDestination owner outlet (t.taking c) where
  owner := destination.owner
  backend := destination.backend
  closed := destination.closed
  full full := Nat.lt_of_lt_of_le (destination.full full) (Nat.le_add_right _ _)
  room := by
    rw [Handle.taking, light]
    exact destination.room
  stream := destination.stream

/-- A chunk is written to a queue that is not full. -/
theorem IsDestination.taking_send {n : Nat} (destination : IsDestination owner outlet t)
    (under : outlet.extra = false) (most : n ≤ chunkSize) :
    IsDestination owner { outlet with extra := true } (t.taking (.send n)) where
  owner := destination.owner
  backend := destination.backend
  closed := destination.closed
  full full := Nat.lt_of_lt_of_le (destination.full full) (Nat.le_add_right _ _)
  room := by
    have room := destination.room
    rw [Outlet.limit, under, if_neg Bool.false_ne_true] at room
    exact Nat.add_lt_add_of_lt_of_le room most
  stream := by
    obtain ⟨v, made, writer⟩ := destination.stream
    exact ⟨v, made, { writer with }⟩

/-- What was in hand is accepted as a write, and it counts. -/
theorem InTask.enqueue_send {data : Bytes} {position : Nat}
    (stands : InTask setting intake outlet data w) (under : outlet.extra = false)
    (most : data.length ≤ chunkSize) :
    InTask setting intake { outlet with extra := true } []
      (w.enqueue destinationHandle (.ofWrite data position) (.send data.length)) := by
  have counted := stands.modifyDestination (f := (·.taking (.send data.length)))
    (fun t destination => destination.taking_send under most) stands.held
  have accepted := counted.record_send (a := ⟨w.nextOperation, destinationHandle,
    .ofWrite data position, .send data.length⟩) ⟨rfl, rfl⟩ rfl
  exact InTask.submit { accepted with }

/-! ## Commands -/

/-- What a command that was accepted has brought about. -/
abbrev Goes (setting : Setting) (intake : Intake) (outlet : Outlet) (unsent : Bytes)
    (reply : Reply) (after : World) : Prop :=
  IsAccepted reply ∧ InTask setting intake outlet unsent after

theorem returns_startRead {endless : Bool} (stands : InTask setting { endless } outlet unsent w) :
    Returns (fun _ after =>
      InTask setting { busy := true, counted := true, endless } outlet unsent after)
      (startRead sourceHandle) w := by
  have awake : ¬ outlet.waits = true := fun waits => nomatch (stands.held waits).paused
  obtain ⟨s, known, source⟩ := stands.source?
  obtain ⟨r, made, reader⟩ := source.stream
  have idle : w.idleReader? sourceHandle = some r := by
    rw [World.idleReader?, known]
    simp [source.closed, made, reader.busy, reader.ended]
  have begun : InTask setting { busy := true, endless } outlet unsent
      (w.modifyReader sourceHandle ({ · with busy := true })) :=
    stands.modifyReader (fun r reader => { reader with busy := rfl }) rfl rfl
      fun waits => absurd waits awake
  have counted : InTask setting { busy := true, counted := true, endless } outlet unsent
      ((w.modifyReader sourceHandle ({ · with busy := true })).modifyHandle sourceHandle
        (·.taking .chunk)) :=
    begun.modifySource (fun s source => source.counting (by rw [source.inFlight]; rfl))
      fun waits => absurd waits awake
  rw [startRead]
  apply returns_get_bind
  rw [idle]
  apply returns_modify_bind
  have room : ¬ r.chunkSize > Buffer.maxLength := by
    rw [reader.size]
    decide
  dsimp only
  rw [if_neg room]
  refine returns_modify ?_
  exact (counted.accept ⟨rfl, r.position, by rw [reader.size]⟩ rfl).submit

theorem returns_require {what : String} {c : Command} {P : World → Prop}
    (run : Returns (fun reply after => IsAccepted reply ∧ P after) (c.run received) w) :
    Returns (fun reply after => IsAccepted reply ∧ P after)
      ((Command.require what c).run received) w := by
  rw [Command.run]
  refine returns_bind run fun reply after goes => ?_
  split
  · exact goes.1.elim
  · exact returns_pure goes

/-- The first of some commands, which is noted, and then the others. -/
theorem returns_cons {c : Command} {rest : List Command} {P : World → Prop}
    (first : Returns (Goes setting intake outlet unsent) (c.run received) w)
    (next : ∀ after, InTask setting intake outlet unsent after →
      Returns (fun _ last => P last) (runAll received rest) after) :
    Returns (fun _ last => P last) (runAll received (c :: rest)) w := by
  rw [runAll]
  refine returns_bind first fun reply after ⟨accepted, stands⟩ => ?_
  exact returns_note_bind (next _ (stands.record accepted trivial))

theorem returns_nil {P : World → Prop} (holds : P w) :
    Returns (fun _ last => P last) (runAll received []) w := by
  rw [runAll]
  exact returns_pure holds

theorem returns_asking {f : Slot} {h : HandleId} {next : HandleId → Run Reply}
    {P : Reply → World → Prop} (got : (w.slot f).handle = some h)
    (goes_on : Returns P (next h) w) : Returns P (withHandle f next) w := by
  obtain ⟨reply, after, ends, holds⟩ := goes_on
  exact ⟨reply, after, (exec_withHandle got).trans ends, holds⟩

theorem returns_sending {next : HandleId → Run Reply} {P : Reply → World → Prop}
    (stands : Stands setting intake outlet unsent w)
    (goes_on : Returns P (next destinationHandle) w) :
    Returns P (withWriter destination next) w := by
  obtain ⟨reply, after, ends, holds⟩ := goes_on
  exact ⟨reply, after, (exec_withWriter (by rw [stands.slot_destination])).trans ends, holds⟩

theorem returns_reading {next : HandleId → Run Reply} {P : Reply → World → Prop}
    (stands : Stands setting intake outlet unsent w)
    (goes_on : Returns P (next sourceHandle) w) : Returns P (Run.withReader source next) w := by
  obtain ⟨reply, after, ends, holds⟩ := goes_on
  exact ⟨reply, after, (exec_withReader (by rw [stands.slot_source])).trans ends, holds⟩

/-- What is in hand is written. -/
theorem returns_send (stands : InTask setting intake outlet received w)
    (opened : outlet.closed = false) (under : outlet.extra = false)
    (most : received.length ≤ chunkSize) :
    Returns (Goes setting intake { outlet with extra := true } [])
      ((Command.send destination .received).run received) w := by
  obtain ⟨t, known, -, accepted⟩ := stands.checkStream_destination opened
  rw [Command.run]
  refine returns_sending stands.toStands (returns_ask (f := fun w => w.send destinationHandle _)
    (by rw [World.send, accepted]; rfl) ⟨trivial, ?_⟩)
  exact (stands.enqueue_send under most).modifyWriter (fun v writer => { writer with }) rfl rfl rfl
    stands.held

theorem returns_pause (stands : InTask setting intake outlet unsent w)
    (opened : intake.closed = false) :
    Returns (Goes setting { intake with paused := true } outlet unsent)
      ((Command.pause source).run received) w := by
  obtain ⟨s, known, -, accepted⟩ := stands.checkStream_source opened
  rw [Command.run]
  refine returns_reading stands.toStands (returns_ask (f := fun w => w.pause sourceHandle)
    (by rw [World.pause, accepted]; rfl) ⟨trivial, ?_⟩)
  exact stands.modifyReader (fun r reader => { reader with paused := rfl }) rfl rfl
    fun waits => { stands.held waits with paused := rfl }

/-- A queue that is full has not drained. -/
theorem InTask.not_hasDrained (stands : InTask setting intake outlet unsent w)
    (full : outlet.full = true) : w.hasDrained destinationHandle = false := by
  obtain ⟨t, known, destination⟩ := stands.destination?
  obtain ⟨v, made, writer⟩ := destination.stream
  have more := destination.full full
  rw [World.hasDrained, known]
  simp [made, writer.lowwater, more]

theorem InTask.onDrain (stands : InTask setting intake outlet unsent w)
    (handler : Callback Command) (opened : outlet.closed = false) (held : intake.IsHeld)
    (body : handler.body = onDrained) : ∃ after, w.onDrain destinationHandle handler = .ok after ∧
      InTask setting intake { outlet with waits := true } unsent after := by
  obtain ⟨t, known, -, accepted⟩ := stands.checkStream_destination opened
  have registered : InTask setting intake { outlet with waits := true } unsent
      ({ w with nextDrain := w.nextDrain + 1 }.modifyWriter destinationHandle
        (·.awaiting ⟨w.nextDrain, w.handler handler⟩)) :=
    InTask.modifyWriter { stands with } (fun v writer =>
        { writer with drain := congrArg some body }) rfl rfl rfl fun _ => held
  exact ⟨_, by rw [World.onDrain, accepted]; rfl,
    registered.record (e := .awaited destinationHandle w.nextDrain) trivial trivial⟩

/-- While the queue is full a callback waits for it to drain. -/
theorem returns_onDrain {tag : String} (stands : InTask setting intake outlet unsent w)
    (opened : outlet.closed = false) (full : outlet.full = true) (held : intake.IsHeld) :
    Returns (Goes setting intake { outlet with waits := true } unsent)
      ((Command.onDrain destination { tag, body := onDrained }).run received) w := by
  obtain ⟨after, accepted, waits⟩ := stands.onDrain { tag, body := onDrained } opened held rfl
  rw [Command.run]
  refine returns_sending stands.toStands (returns_get_bind (returns_get_bind ?_))
  refine returns_request_bind accepted (returns_holding (returns_get_bind ?_))
  have held := waits.hold ([destinationHandle] ++ after.held)
  rw [if_neg (Bool.eq_false_iff.mp (held.not_hasDrained full))]
  refine returns_pure ⟨trivial, ?_⟩
  rw [(held.hold _).sweep]
  exact held.hold _

/-- What a client does if the queue is full or if it is not. -/
theorem returns_ifQueueFull {yes no : List Command} {P : World → Prop}
    (stands : InTask setting intake outlet unsent w) (opened : outlet.closed = false)
    (full : InTask setting intake { outlet with full := true } unsent w →
      Returns (fun _ last => P last) (runAll received yes) w)
    (free : InTask setting intake { outlet with extra := false } unsent w →
      Returns (fun _ last => P last) (runAll received no) w) :
    Returns (fun reply last => IsAccepted reply ∧ P last)
      ((Command.ifQueueFull destination yes no).run received) w := by
  obtain ⟨t, known, isDestination, accepted⟩ := stands.checkStream_destination opened
  obtain ⟨v, made, writer⟩ := isDestination.stream
  rw [Command.run]
  refine returns_sending stands.toStands (returns_get_bind ?_)
  have asked : w.queueFull destinationHandle = .ok (decide (t.outstanding ≥ v.highwater)) := by
    rw [World.queueFull, accepted, Except.map, made]
    rfl
  rw [asked]
  obtain ⟨s, t', handles, source, -⟩ := stands.handles
  rw [handles] at known
  obtain rfl : t' = t := Option.some.inj known
  by_cases enough : t'.outstanding ≥ v.highwater
  · -- what is full is above the lower mark as well, and so has not drained
    rw [decide_eq_true enough]
    have more : queueMax / 2 < t'.outstanding := by
      rw [writer.highwater] at enough
      exact Nat.lt_of_lt_of_le (by decide) enough
    have isFull : InTask setting intake { outlet with full := true } unsent w :=
      stands.of_handles handles source { isDestination with
        full := fun _ => more
        stream := ⟨v, made, { writer with }⟩ } stands.held
    exact returns_bind (full isFull) fun _ last holds => returns_pure ⟨trivial, holds⟩
  · rw [decide_eq_false enough]
    have room : t'.outstanding < queueMax := writer.highwater ▸ Nat.lt_of_not_le enough
    have isFree : InTask setting intake { outlet with extra := false } unsent w :=
      stands.of_handles handles source { isDestination with
        room := room
        stream := ⟨v, made, { writer with }⟩ } stands.held
    exact returns_bind (free isFree) fun _ last holds => returns_pure ⟨trivial, holds⟩

/-- A stream that is not paused has its next read started. -/
theorem Stands.wantsRead (stands : Stands setting intake outlet unsent w)
    (opened : intake.closed = false) (heard : intake.deaf = false) :
    w.wantsRead sourceHandle = !intake.paused := by
  obtain ⟨r, stream, reader⟩ := stands.reader?
  obtain ⟨g, listens, -⟩ := reader.data opened heard
  rw [World.wantsRead, stream, Option.any_some, reader.paused, listens, Option.isSome_some,
    Bool.and_true]

theorem InTask.resume (stands : InTask setting { paused := true } outlet unsent w)
    (awake : outlet.waits = false) :
    ∃ after, w.resume sourceHandle = .ok after ∧ InTask setting {} outlet unsent after := by
  obtain ⟨s, -, -, accepted⟩ := stands.checkStream_source rfl
  refine ⟨w.modifyReader sourceHandle Reader.resumed, by rw [World.resume, accepted]; rfl, ?_⟩
  exact stands.modifyReader (fun r reader => { reader with paused := rfl }) rfl rfl
    fun waits => absurd waits (Bool.eq_false_iff.mp awake)

/-- The end of a pause, after which the stream goes on. -/
theorem returns_resume (stands : InTask setting { paused := true } outlet unsent w)
    (awake : outlet.waits = false) :
    Returns (Goes setting { busy := true, counted := true } outlet unsent)
      ((Command.resume source).run received) w := by
  obtain ⟨after, accepted, resumed⟩ := stands.resume awake
  obtain ⟨r, stream, reader⟩ := stands.reader?
  have paused : (w.reader? sourceHandle).any Reader.paused = true := by
    rw [stream]
    exact reader.paused
  have goes_on : (Except.isOk (Except.ok () : Except FileError Unit) && true &&
      after.wantsRead sourceHandle) = true := resumed.wantsRead rfl rfl
  rw [Command.run]
  refine returns_reading stands.toStands (returns_get_bind ?_)
  rw [paused]
  refine returns_request_bind accepted (returns_get_bind ?_)
  rw [if_pos goes_on]
  exact returns_bind (returns_startRead resumed) fun _ last reads => returns_pure ⟨trivial, reads⟩

theorem InTask.close_source (stands : InTask setting intake outlet unsent w)
    (opened : intake.closed = false) : ∃ after, w.close sourceHandle none = .ok after ∧
      InTask setting { intake with closed := true } outlet unsent after := by
  obtain ⟨s, known, -, accepted⟩ := stands.checkStream_source opened
  have counts : InTask setting intake outlet unsent
      (w.accept sourceHandle .close (.close none)).2 :=
    InTask.accept (stands.modifySource (fun s source => source.taking rfl) stands.held) rfl rfl
  have shut : InTask setting { intake with closed := true } outlet unsent _ :=
    counts.modifySource (f := ({ · with closed := true })) (fun s source => by
      obtain ⟨r, made, reader⟩ := source.stream
      exact ⟨source.owner, source.backend, rfl, source.inFlight, r, made,
        { reader with data := nofun, ending := nofun }⟩)
      fun waits => { stands.held waits with }
  refine ⟨_, by rw [World.close, World.check_of_checkStream accepted]; rfl, ?_⟩
  dsimp only
  split
  · exact shut.submit
  · exact shut.modifySource (fun s source => { source with }) shut.held

theorem InTask.close_destination (stands : InTask setting intake outlet unsent w)
    (opened : outlet.closed = false) : ∃ after,
      w.close destinationHandle (some { tag := closedTag, body := [] }) = .ok after ∧
      InTask setting intake { outlet with closed := true } unsent after := by
  obtain ⟨t, known, -, accepted⟩ := stands.checkStream_destination opened
  have counts : InTask setting intake outlet unsent
      (w.accept destinationHandle .close (.close (some (w.handler ⟨closedTag, [], []⟩)))).2 :=
    InTask.accept (stands.modifyDestination (fun t destination => destination.taking rfl)
      stands.held) ⟨rfl, rfl, rfl⟩ rfl
  have shut : InTask setting intake { outlet with closed := true } unsent _ :=
    counts.modifyDestination (f := ({ · with closed := true })) (fun t destination => by
      obtain ⟨v, made, writer⟩ := destination.stream
      exact ⟨destination.owner, destination.backend, rfl, destination.full, destination.room, v,
        made, { writer with }⟩) stands.held
  refine ⟨_, by rw [World.close, World.check_of_checkStream accepted]; rfl, ?_⟩
  dsimp only
  split
  · exact shut.submit
  · exact shut.modifyDestination (fun t destination => { destination with }) shut.held

theorem returns_close_source (stands : InTask setting intake outlet unsent w)
    (opened : intake.closed = false) :
    Returns (Goes setting { intake with closed := true } outlet unsent)
      ((Command.close source none).run received) w := by
  obtain ⟨after, accepted, closed⟩ := stands.close_source opened
  rw [Command.run]
  exact returns_asking (by rw [stands.slot_source]) (returns_ask accepted ⟨trivial, closed⟩)

theorem returns_close_destination (stands : InTask setting intake outlet unsent w)
    (opened : outlet.closed = false) :
    Returns (Goes setting intake { outlet with closed := true } unsent)
      ((Command.close destination (some { tag := closedTag, body := [] })).run received) w := by
  obtain ⟨after, accepted, closed⟩ := stands.close_destination opened
  rw [Command.run]
  exact returns_asking (by rw [stands.slot_destination]) (returns_ask accepted ⟨trivial, closed⟩)

/-! ## Callbacks -/

/-- A chunk was written.  If the queue is full with it, reading is paused until it has drained. -/
abbrev HasWritten (setting : Setting) (w : World) : Prop :=
  InTask setting {} {} [] w ∨
    InTask setting { paused := true } { waits := true, extra := true } [] w

/-- The source has ended, and both files were closed. -/
abbrev HasEnded (setting : Setting) (w : World) : Prop :=
  InTask setting { ended := true, closed := true } { closed := true } [] w

/-- A chunk is written, and while the queue is full reading pauses. -/
theorem returns_onChunk (stands : InTask setting {} {} received w)
    (most : received.length ≤ chunkSize) :
    Returns (fun _ after => HasWritten setting after) (runAll received onChunk) w := by
  refine returns_cons (returns_require (returns_send stands rfl rfl most)) fun sent stands => ?_
  rw [runAll]
  -- the two branches lead to two stances, so they are not told apart before the end
  refine returns_bind (returns_require (P := HasWritten setting) ?_) ?_
  · refine returns_ifQueueFull stands rfl (fun full => ?_) fun free => returns_nil (.inl free)
    refine returns_cons (returns_require (returns_pause full rfl)) fun paused stands => ?_
    refine returns_cons (returns_require (returns_onDrain stands rfl rfl ⟨rfl, rfl, rfl⟩))
      fun waiting stands => ?_
    have forgotten := stands.forget_full
    exact returns_nil (.inr forgotten)
  · rintro reply after ⟨accepted, reads | waits⟩
    · exact returns_note_bind (returns_nil (.inl (reads.record accepted trivial)))
    · exact returns_note_bind (returns_nil (.inr (waits.record accepted trivial)))

/-- At the end of the source both files are closed. -/
theorem returns_onEnd (stands : InTask setting { ended := true } {} [] w) :
    Returns (fun _ after => HasEnded setting after) (runAll received onEnd) w := by
  refine returns_cons (returns_require (returns_close_source stands rfl)) fun half stands => ?_
  exact returns_cons (returns_require (returns_close_destination stands rfl))
    fun both stands => returns_nil stands

/-- Once the queue has drained reading goes on. -/
theorem returns_onDrained (stands : InTask setting { paused := true } outlet unsent w)
    (awake : outlet.waits = false) :
    Returns (fun _ after => InTask setting { busy := true, counted := true } outlet unsent after)
      (runAll received onDrained) w :=
  returns_cons (returns_require (returns_resume stands awake)) fun _ stands => returns_nil stands

end PinnedFile.Copying
