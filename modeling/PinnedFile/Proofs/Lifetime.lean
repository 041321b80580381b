/-
  PinnedFile.Proofs.Lifetime

  How long a handle that is not closed lives.

  Unless a handler of a stream has captured a handle, it lives as long as the client holds it or
  one of its operations is on its way, and no longer, but for what is lost with a panic of native
  work: such an operation is never told of, and its references can be given up on the loop only.
  A handle that is gone has no registrations.  It stays as it is from then on, and its streams
  refuse every call.
-/

import PinnedFile.Proofs.Lifetime.Captures
import PinnedFile.Proofs.Lifetime.Losses
import PinnedFile.Proofs.Refusals

namespace PinnedFile

open Run

variable {mode : Mode} {w after : World} {h k : HandleId} {s : Handle} {a job : Job}

/-! ## What keeps a handle -/

namespace World

/-- The client holds a handle: in a slot, or by the handler of an operation on its way. -/
inductive IsKept (w : World) (h : HandleId) : Prop where
  | slot {entry : Slot × SlotEntry} (listed : entry ∈ w.slots) (holds : entry.2.handle = some h)
  | handler {job : Job} (underway : job ∈ w.books.underway) (captures : h ∈ job.completion.holds)

/-- An operation of a handle is on its way. -/
def InFlight (w : World) (h : HandleId) : Prop := ∃ job ∈ w.books.underway, job.handle = h

/-- The native work of an operation has panicked. -/
def HasPanicked (w : World) (a : Job) : Prop := w.books.HasPanicked a

/-- An operation has come to its end, and its handler, if it has one, was called once. -/
structure Completes (w : World) (a : Job) : Prop where
  completed : ∃ c ∈ w.completed, c.1.ticket = a.ticket
  called : a.completion.handler?.isSome = true → (w.callsOf a.id).length = 1

theorem keeps_of_underway (underway : job ∈ w.books.underway) (holds : h ∈ job.holds) :
    w.IsKept h ∨ w.InFlight h := by
  rcases List.mem_cons.mp holds with rfl | captures
  · exact .inr ⟨job, underway, rfl⟩
  · exact .inl (.handler underway captures)

theorem refers_of_underway (underway : job ∈ w.books.underway) (holds : h ∈ job.holds) :
    w.Refers h := by
  rcases Books.mem_underway.mp underway with queued | running | ⟨outcome, posted⟩ |
    ⟨s, listed, waits⟩
  · exact ⟨.jobs, List.mem_flatMap.mpr ⟨job, queued, holds⟩⟩
  · exact ⟨.running, List.mem_flatMap.mpr ⟨job, running, holds⟩⟩
  · exact ⟨.tasks, List.mem_flatMap.mpr ⟨.deliver job outcome, posted, holds⟩⟩
  · obtain ⟨s', there, rfl⟩ := List.mem_map.mp listed
    refine ⟨.handles, List.mem_flatMap.mpr ⟨s', there, List.mem_append_right _ ?_⟩⟩
    rw [show s'.pendingClose = some job from waits]
    exact holds

/-- What the client holds or an operation needs is referred to. -/
theorem refers_of_keeps (keeps : w.IsKept h ∨ w.InFlight h) : w.Refers h := by
  rcases keeps with (⟨listed, holds⟩ | ⟨underway, captures⟩) | ⟨job, underway, rfl⟩
  · exact ⟨.slots, List.mem_filterMap.mpr ⟨_, listed, holds⟩⟩
  · exact refers_of_underway underway (List.mem_cons_of_mem _ captures)
  · exact refers_of_underway underway List.mem_cons_self

/-- Between two steps nothing else refers to a handle, but for what was lost: streams hold none
    unless a handler has captured one. -/
theorem keeps_of_refers (free : w.held = []) (recorded : w.IsRecorded)
    (uncaptured : w.CapturesNone) (refers : w.Refers h) :
    w.IsKept h ∨ w.InFlight h ∨ h ∈ w.leaked := by
  rw [← or_assoc]
  obtain ⟨place, here⟩ := refers
  cases place with
  | slots =>
    obtain ⟨entry, listed, holds⟩ := List.mem_filterMap.mp here
    exact .inl (.inl (.slot listed holds))
  | jobs =>
    obtain ⟨job, queued, holds⟩ := List.mem_flatMap.mp here
    exact .inl (keeps_of_underway (Books.underway_of_queued queued) holds)
  | running =>
    obtain ⟨job, running, holds⟩ := List.mem_flatMap.mp here
    exact .inl (keeps_of_underway (Books.underway_of_running running) holds)
  | tasks =>
    obtain ⟨task, posted, holds⟩ := List.mem_flatMap.mp here
    cases task with
    | deliver job outcome =>
      exact .inl (keeps_of_underway (Books.underway_of_posted posted) holds)
    | client | later => cases holds
  | handles =>
    obtain ⟨s, listed, holds⟩ := List.mem_flatMap.mp here
    rcases Handle.mem_holds.mp holds with ⟨kind, registered⟩ | waits
    · rw [recorded.streamHolds uncaptured listed] at registered
      cases registered
    · rcases pending : s.pendingClose with _ | job
      · rw [pending] at waits
        cases waits
      · rw [pending] at waits
        have there : s.core ∈ w.books.handles := List.mem_map_of_mem listed
        exact .inl (keeps_of_underway (Books.underway_of_waiting there pending) waits)
  | held =>
    rw [heldAt, free] at here
    cases here
  | leaked => exact .inr here
  | remnants =>
    obtain ⟨r, left, holds⟩ := List.mem_flatMap.mp here
    rw [recorded.remnantHolds uncaptured left] at holds
    cases holds

/-- A handle that lives keeps its backend, and one that is gone does not. -/
theorem isHeld_iff {b : BackendId} : w.isHeld b = true ↔
    ∃ k s, w.isLive k = true ∧ w.handles[k]? = some s ∧ s.backend = b := by
  rw [isHeld, List.any_eq_true]
  constructor
  · rintro ⟨k, listed, same⟩
    obtain ⟨s, known, own⟩ := (Option.any_eq_true _ _).mp same
    exact ⟨k, s, isLive_iff.mpr (mem_references.mp listed), known, of_decide_eq_true own⟩
  · rintro ⟨k, s, live, known, own⟩
    refine ⟨k, mem_references.mpr (isLive_iff.mp live), ?_⟩
    rw [known]
    exact decide_eq_true own

end World

/-! ## Operations -/

/-- An operation whose native work has not panicked is on its way or has come to its end. -/
theorem Reachable.underway_or_completes (reached : Reachable mode w) (alive : w.IsAlive)
    (accepted : a ∈ w.accepted) (returns : ¬ w.HasPanicked a) :
    (∃ job ∈ w.books.underway, job.ticket = a.ticket) ∨ w.Completes a := by
  have sound := reached.sound
  rcases (reached.losesPanickedOnly alive).underway_or_completed accepted returns with
    underway | ⟨c, told, same⟩
  · exact .inl underway
  · refine .inr ⟨⟨c, told, same⟩, fun handled => ?_⟩
    have called := sound.called_of_completed told same handled
    exact Nat.le_antisymm (sound.callsOf_le_one a.id) (List.length_pos_of_ne_nil called)

/-- At rest no operation of an open handle is on its way. -/
theorem Reachable.not_inFlight_of_rest (reached : Reachable mode w) (rest : w.AtRest)
    (known : w.handles[h]? = some s) (opened : s.closed = false) : ¬ w.InFlight h := by
  rintro ⟨job, underway, rfl⟩
  have sound := reached.sound
  rw [Books.underway_of_atRest rest] at underway
  obtain ⟨s', listed, waits⟩ := List.mem_filterMap.mp underway
  obtain ⟨k, known'⟩ := List.mem_iff_getElem?.mp listed
  -- only a close could wait, and none waits on a handle that is open
  have own := (sound.closing.waiting k s' job known' waits).handle
  rw [← own, World.books_handles known] at known'
  obtain rfl := Option.some.inj known'
  rw [(sound.coherent _ listed).opened opened] at waits
  cases waits

/-! ## Calls on streams -/

/-- The call on a stream that a command makes, if it makes one that needs the handle of the
    stream. -/
def Command.streamCall? : Command → Option HandleCall
  | .onData f _ | .onEnd f _ | .onReadFailure f _ | .clearData f | .pause f | .resume f
  | .pauseResume f | .setChunkSize f _ | .readerHandle f _ => some ⟨.readStream, f, none⟩
  | .send f _ | .sendTwice f _ | .queueFull f | .ifQueueFull f .. | .setQueueMax f _
  | .onDrain f _ | .onWriteFailure f _ | .writerHandle f _ => some ⟨.writeStream, f, none⟩
  | _ => none

theorem exec_replace_error {kind : StreamKind} {f : World → Except FileError World}
    {e : FileError} (refused : f w = .error e) :
    exec (replace h kind f) w = (.ok (.result (.error e)), w) := by
  rw [replace, exec_bind_ok (exec_request_error refused)]
  rfl

/-- A stream looks for its handle before anything else. -/
theorem World.checkStream_of_dead (dead : w.isLive h = false) :
    w.checkStream h = .error .closed := by rw [checkStream, dead, if_neg Bool.false_ne_true]

theorem refused_of_map {α : Type} {f : Handle → α} (dead : w.isLive h = false) :
    (w.checkStream h).map f = .error .closed := by
  rw [World.checkStream_of_dead dead]
  rfl

theorem exec_putHandle_of_dead {target : Slot} (dead : w.isLive h = false) :
    exec (putHandle h target) w = (.ok (.result (.error .closed)), w) :=
  exec_ask_error (by rw [dead, if_neg Bool.false_ne_true])

/-- Every call on a stream is refused if the handle is gone, and nothing changes. -/
theorem refused_of_dead {c : Command} {call : HandleCall} (dead : w.isLive h = false)
    (makes : c.streamCall? = some call) (reaches : w.reached? call = some h) (received : Bytes) :
    exec (c.run received) w = (.ok (.result (.error .closed)), w) := by
  cases c with
  | onData =>
    obtain rfl := Option.some.inj makes
    rw [Command.run, exec_withReader reaches, listenForData,
      exec_bind_ok (exec_request_error (refused_of_map dead))]
    rfl
  | onEnd | onReadFailure | clearData =>
    obtain rfl := Option.some.inj makes
    rw [Command.run, exec_withReader reaches]
    exact exec_replace_error (refused_of_map dead)
  | pause =>
    obtain rfl := Option.some.inj makes
    rw [Command.run, exec_withReader reaches]
    exact exec_ask_error (refused_of_map dead)
  | setChunkSize f size =>
    obtain rfl := Option.some.inj makes
    rw [Command.run, exec_withReader reaches]
    apply exec_ask_error
    rw [World.setChunkSize, World.checkStream_of_dead dead]
  | resume =>
    obtain rfl := Option.some.inj makes
    rw [Command.run, exec_withReader reaches, resumeReading, exec_get_bind,
      exec_bind_ok (exec_request_error (refused_of_map dead))]
    rfl
  | pauseResume =>
    obtain rfl := Option.some.inj makes
    rw [Command.run, exec_withReader reaches,
      exec_bind_ok (exec_request_error (refused_of_map dead))]
    rfl
  | readerHandle =>
    obtain rfl := Option.some.inj makes
    rw [Command.run, exec_withReader reaches]
    exact exec_putHandle_of_dead dead
  | send | setQueueMax =>
    obtain rfl := Option.some.inj makes
    rw [Command.run, exec_withWriter reaches]
    exact exec_ask_error (refused_of_map dead)
  | sendTwice =>
    obtain rfl := Option.some.inj makes
    rw [Command.run, exec_withWriter reaches,
      exec_bind_ok (exec_request_error (refused_of_map dead))]
    rfl
  | queueFull | ifQueueFull =>
    obtain rfl := Option.some.inj makes
    rw [Command.run, exec_withWriter reaches, exec_get_bind,
      show w.queueFull h = .error .closed from refused_of_map dead]
    rfl
  | onDrain f handler =>
    obtain rfl := Option.some.inj makes
    rcases handler with ⟨tag, body, keeps⟩
    rw [Command.run, exec_withWriter reaches, exec_get_bind, exec_get_bind,
      exec_bind_ok (exec_request_error (refused_of_map dead))]
    rfl
  | onWriteFailure =>
    obtain rfl := Option.some.inj makes
    rw [Command.run, exec_withWriter reaches]
    exact exec_replace_error (refused_of_map dead)
  | writerHandle =>
    obtain rfl := Option.some.inj makes
    rw [Command.run, exec_withWriter reaches]
    exact exec_putHandle_of_dead dead
  | _ => cases makes

/-! ## What is so from then on -/

/-- What a client can ask a read stream at any time: its position, whether it is paused, and
    whether it has ended. -/
def Reader.readings (r : Reader) : Nat × Bool × Bool := (r.position, r.paused, r.ended)

/-- Handles that are gone give up their registrations, and nothing else. -/
theorem World.readings_sweep : (w.sweep.reader? k).map Reader.readings =
    (w.reader? k).map Reader.readings := by
  refine World.sweep_induct (P := fun v => (v.reader? k).map Reader.readings =
    (w.reader? k).map Reader.readings) rfl fun v same => ?_
  rw [← same, World.reader?, World.reader?, World.handles_sweepOnce]
  rcases v.handles[k]? with _ | s
  · rfl
  · rw [Option.map_some, Option.bind_some, Option.bind_some]
    split
    · rfl
    · rcases reader : s.reader with _ | r <;> simp [Handle.unregistered, reader, Reader.readings,
        Reader.unregistered]

/-- On the way to `after` a handle stays gone and as it is, and nothing is done on its behalf:
    no operation is accepted or completed, no listener, no drain callback and no sink is
    called. -/
def World.LeavesGone (w : World) (h : HandleId) (s : Handle) (after : World) : Prop :=
  after.IsGone h s ∧ Notes (·.event.caller? ≠ some h) w after

theorem Reachable.leavesGone (reached : Reachable mode w) (gone : w.IsGone h s)
    (steps : Steps mode w after) : w.LeavesGone h s after := by
  have spares : Spares h w after := by
    induction steps with
    | refl => exact spares_refl
    | tail before last ih => exact ih.trans (last.spares (reached.steps before).sound)
  exact spares s gone

/-! ## Lifetime -/

/-- A run in which the client gives up a handle while a write is on its way. -/
def droppedRun : Option World :=
  (World.start 1 ⟨[], []⟩).follow
    [.body 0 [
      .openFile 0 { read := true, write := true } .log (.memory (.bytes []) none {}),
      .readStream 0,
      .onEnd 0 ⟨"end", [], [], []⟩,
      .write 0 (.bytes [1, 2]) 0 ⟨"written", [], []⟩,
      .drop 0]]

/-- The same run after the write. -/
def releasedRun : Option World :=
  droppedRun.bind (World.follow · [.take, .answer 0 (.moved 2 []), .finish 0, .task])

/-- A run in which the client has given up its handle while a worker flushes. -/
def flushingRun : Option World :=
  (World.start 1 ⟨[], []⟩).follow
    [.body 0 [
      .openFile 0 { write := true } .log (.memory (.bytes []) none {}),
      .flush 0 (some ⟨"flushed", [], []⟩),
      .drop 0],
    .take]

/-- The same run after the native work of the flush has panicked. -/
def lostRun : Option World :=
  flushingRun.bind fun w => w.running.head?.map fun job => w.answer job .sync (.panicked "gone")

/-- No slot has a handle, and no operation is on its way. -/
def World.needsNone (w : World) : Bool :=
  w.slots.all (·.2.handle.isNone) && w.books.underway.isEmpty

theorem World.not_keeps_of_needsNone (none : w.needsNone = true) :
    ¬ w.IsKept h ∧ ¬ w.InFlight h := by
  simp only [needsNone, Bool.and_eq_true, List.all_eq_true, List.isEmpty_iff,
    Option.isNone_iff_eq_none] at none
  obtain ⟨slots, underway⟩ := none
  have quiet : ∀ job, job ∉ w.books.underway := fun job => by
    rw [underway]
    exact List.not_mem_nil
  refine ⟨?_, fun ⟨job, listed, _⟩ => quiet job listed⟩
  rintro (⟨listed, holds⟩ | ⟨listed, captures⟩)
  · rw [slots _ listed] at holds
    cases holds
  · exact quiet _ listed

end PinnedFile
