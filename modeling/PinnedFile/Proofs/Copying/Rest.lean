/-
  PinnedFile.Proofs.Copying.Rest

  The copying comes to rest nowhere but at its end.

  It does not rest while it reads, for then a read is in flight; and not while it waits for the
  queue to drain, for then a write is outstanding.  So it rests when both files were closed.
  By then the whole source was read and written, and every write has succeeded, so its bytes
  are in the destination.
-/

import PinnedFile.Proofs.Copying.Beginning
import PinnedFile.Proofs.Panics

namespace PinnedFile

namespace Copying

variable {setting : Setting} {intake : Intake} {outlet : Outlet} {contents old unsent : Bytes}
  {a b : NodeId} {w : World} {e : Entry} {history : List Entry}

/-! ## Operations -/

theorem Stands.isAlive (stands : Stands setting intake outlet unsent w)
    (sound : setting.IsSound contents old a b) : w.IsAlive :=
  ⟨stands.jobs sound.smooth, stands.tasks sound.smooth⟩

/-- Whatever writes in the copying is the write stream of the destination. -/
theorem IsOwn.isSendOf {job : Job} (own : IsOwn job) (writes : job.completion.operation = .write) :
    job.IsSendOf destinationHandle := by
  rcases own.of_ticket rfl with
    ⟨-, chunk | close⟩ | ⟨destination, ⟨n, send⟩ | ⟨handler, close, -⟩⟩
  · rw [chunk] at writes
    cases writes
  · rw [close] at writes
    cases writes
  · exact ⟨destination, by rw [send]; rfl⟩
  · rw [close] at writes
    cases writes

namespace Copies

/-- What is completed is an operation of the copying, and has gone well. -/
theorem own_of_completed (copies : Copies contents old a b w) {c : Job × Outcome}
    (completed : c ∈ w.completed) : (∃ other ∈ w.accepted, other.ticket = c.1.ticket ∧
      IsOwn other) ∧ ∃ bytes, c.2 = .ok bytes := by
  obtain ⟨setting, intake, outlet, -, stands, sound⟩ := copies.stands
  obtain ⟨⟨other, accepted, ticket, -⟩, -⟩ := copies.reached.sound.traced.completed c completed
  refine ⟨⟨other, accepted, ticket, stands.own accepted⟩, ?_⟩
  obtain ⟨e, listed, told⟩ := List.mem_filterMap.mp completed
  have smooth := stands.smooth sound.smooth e listed
  rcases e with ⟨context, event, handles⟩
  cases event with
  | completed job outcome =>
    obtain rfl := Option.some.inj told
    exact smooth
  | _ => cases told

/-- No write was direct. -/
theorem not_direct (copies : Copies contents old a b w) {h : HandleId} {job : Job}
    (last : w.lastWrite? h = some job) : ¬ job.WritesDirectly := by
  rintro ⟨writes, direct⟩
  obtain ⟨c, completed, rfl⟩ := List.mem_map.mp (List.mem_of_find?_eq_some last)
  obtain ⟨⟨other, -, ticket, own⟩, -⟩ := copies.own_of_completed completed
  have completion : other.completion = c.1.completion := congrArg Ticket.completion ticket
  rw [← completion] at writes direct
  rw [Completion.isStreams_of_isSend (own.isSendOf writes).2] at direct
  cases direct

/-- At rest nothing is outstanding and nothing is in flight. -/
theorem quiet_of_rest (copies : Copies contents old a b w) (rest : w.AtRest) {h : HandleId}
    {s : Handle} (known : w.handles[h]? = some s) : s.outstanding = 0 ∧ s.inFlight = 0 := by
  obtain ⟨setting, intake, outlet, -, stands, sound⟩ := copies.stands
  obtain ⟨loose, accounted, kept⟩ := copies.reached.sound.accounted
  obtain rfl := kept rfl (stands.isAlive sound)
  have quiet := copies.reached.sound.quiet_of_rest accounted rest (World.books_handles known)
  have both : s.isQuiet = true := quiet
  simpa [Handle.isQuiet] using both

/-- The copying rests only once both files were closed. -/
theorem finished_of_rest (copies : Copies contents old a b w) (rest : w.AtRest) :
    ∃ setting, Stands setting { ended := true, closed := true } { closed := true } [] w ∧
      setting.IsSound contents old a b := by
  obtain ⟨setting, intake, outlet, between, stands, sound⟩ := copies.stands
  cases between with
  | reading =>
    -- the read that is under way counts as in flight
    obtain ⟨s, known, source⟩ := stands.source?
    have none := (copies.quiet_of_rest rest known).2
    rw [source.inFlight] at none
    cases none
  | waiting =>
    obtain ⟨t, known, destination⟩ := stands.destination?
    obtain ⟨v, made, writer⟩ := destination.stream
    have waits : t.writeStream.drain ≠ none := by
      rw [Handle.writeStream, made]
      intro idle
      have drain := writer.drain
      rw [show v.drain = none from idle] at drain
      cases drain
    -- a callback that waits is woken by a write that is outstanding, unless the last was direct
    rcases (copies.reached.waking destinationHandle).wakes copies.reached.deliveriesReturned t
        known waits with some | ⟨job, last, direct⟩
    · exact absurd (copies.quiet_of_rest rest known).1 (Nat.ne_of_gt some)
    · exact absurd direct (copies.not_direct last)
  | finished => exact ⟨setting, stands, sound⟩
  | stalled troubled => exact absurd sound.smooth (Bool.eq_false_iff.mp troubled)

/-! ## What was written -/

/-- Once the source has ended, all of it was written. -/
theorem dataOf_of_ended (copies : Copies contents old a b w)
    (stands : Stands setting intake outlet [] w) (ended : intake.ended = true) :
    dataOf (w.sends destinationHandle) = contents := by
  obtain ⟨r, stream, reader⟩ := stands.reader?
  have length := copies.reached.length_of_ended copies.isServed stream (reader.ended.trans ended)
  have position := (readPositionIn_of_reader stream).symm.trans
    (copies.reached.reading sourceHandle).position
  rw [stands.copied, List.append_nil] at position
  rw [copies.written_eq_take, ← position, length, List.take_length]

/-- The bytes copied are those that were written. -/
theorem total_eq (copies : Copies contents old a b w) :
    total w = (dataOf (w.sends destinationHandle)).length := by
  obtain ⟨setting, intake, outlet, -, stands, -⟩ := copies.stands
  obtain ⟨t, known, isDestination⟩ := stands.destination?
  obtain ⟨v, made, -⟩ := isDestination.stream
  rw [← (copies.reached.sending destinationHandle).position, total, stands.slot_destination,
    sentPositionIn, known]
  simp [World.writer?, known, made, Handle.writeStream]

/-- At rest all that was accepted has succeeded. -/
theorem succeeded_of_rest (copies : Copies contents old a b w) (rest : w.AtRest) {job : Job}
    (accepted : job ∈ w.accepted) : w.Succeeded job := by
  obtain ⟨setting, intake, outlet, -, stands, sound⟩ := copies.stands
  obtain ⟨c, completed, ticket⟩ :=
    copies.reached.sound.completed_of_rest (stands.isAlive sound) rest accepted
  exact ⟨c, completed, congrArg Ticket.id ticket, (copies.own_of_completed completed).2⟩

/-- The write stream is all that writes to the destination. -/
theorem onlySends (copies : Copies contents old a b w) : w.OnlySends 1 destinationHandle := by
  obtain ⟨setting, intake, outlet, -, stands, sound⟩ := copies.stands
  refine ⟨?_, fun job accepted _ => (stands.own accepted).isSendOf, fun x listed => ?_⟩
  · obtain ⟨t, known, isDestination⟩ := stands.destination?
    rw [known, Option.map_some, isDestination.backend]
  · rw [stands.exchangesOn, List.mem_filter, decide_eq_true_iff] at listed
    obtain ⟨-, data, goes⟩ := sound.writes x listed.1 listed.2
    exact goes.stores

/-- At rest the destination holds what was written, and behind that what it held before. -/
theorem contents_of_rest (copies : Copies contents old a b w) (rest : w.AtRest) :
    w.files.contents? b = some (contents ++ old.drop contents.length) := by
  obtain ⟨setting, stands, sound⟩ := copies.finished_of_rest rest
  have only := copies.onlySends
  have whole : stored old (w.exchangesOn 1) =
      old.place 0 (dataOf (w.sends destinationHandle)) := by
    refine stored_eq_place (fun x => copies.reached.isPieceOf only) fun i within => ?_
    obtain ⟨earlier, job, later, split, k, inside, rfl⟩ := exists_of_lt_dataOf within
    have accepted := (mem_sends_iff.mp (split ▸ List.mem_append_cons_self)).1
    exact copies.reached.stores_of_succeeded only split (copies.succeeded_of_rest rest accepted)
      inside
  rw [copies.dataOf_of_ended stands rfl, Bytes.place_zero, stands.exchangesOn] at whole
  rw [stands.files, sound.destination, whole]

/-! ## What is told -/

end Copies

/-- The entry by which the copying is told to be done. -/
def isReport (e : Entry) : Bool :=
  match e.event with
  | .handled _ .close tag (.ok _) => tag == closedTag
  | _ => false

/-- Every handler that is called tells the end of the copying. -/
theorem countP_isReport (smooth : ∀ e ∈ history, IsSmooth e.event) :
    history.countP isReport = (history.filterMap (·.event.handlerCall?)).length := by
  induction history with
  | nil => rfl
  | cons e older ih =>
    have before := ih fun e listed => smooth e (List.mem_cons_of_mem _ listed)
    have first := smooth e List.mem_cons_self
    rcases e with ⟨context, event, handles⟩
    rw [List.countP_cons, List.filterMap_cons, before]
    cases event with
    | handled id operation tag result =>
      obtain ⟨rfl, rfl, bytes, rfl⟩ := first
      rfl
    | _ => rfl

namespace Copies

/-- The close of the destination is all that has a handler. -/
theorem closes_of_handlerCall (copies : Copies contents old a b w) {call : HandlerCall}
    (called : call ∈ w.handlerCalls) : ∃ other ∈ w.accepted, other.Closes ∧
      other.handle = destinationHandle ∧ call.operation = other.id := by
  obtain ⟨setting, intake, outlet, -, stands, -⟩ := copies.stands
  obtain ⟨other, accepted, u, outcome, -, -, calls⟩ :=
    copies.reached.sound.origin_of_call called
  obtain ⟨handler, handled, -⟩ := Option.map_eq_some_iff.mp calls
  refine ⟨other, accepted, ?_⟩
  have number := Books.operation_of_handlerCall calls
  rcases (stands.own accepted).of_ticket rfl with
    ⟨-, chunk | close⟩ | ⟨destination, ⟨n, send⟩ | ⟨handler, close, -⟩⟩
  · rw [chunk] at handled
    cases handled
  · rw [close] at handled
    cases handled
  · rw [send] at handled
    cases handled
  · exact ⟨by rw [Job.Closes, close]; rfl, destination, number⟩

theorem exists_report (done : isDone w = true) : ∃ call, call ∈ w.handlerCalls := by
  obtain ⟨e, listed, told⟩ := List.any_eq_true.mp done
  rcases e with ⟨context, event, handles⟩
  cases event with
  | handled id operation tag result =>
    exact ⟨_, List.mem_filterMap.mpr ⟨_, listed, rfl⟩⟩
  | _ => cases told

/-- Once the copying is done, as many bytes were copied as there are in the source. -/
theorem total_of_done (copies : Copies contents old a b w) (done : isDone w = true) :
    total w = contents.length := by
  obtain ⟨call, called⟩ := exists_report done
  obtain ⟨other, accepted, closes, handle, -⟩ := copies.closes_of_handlerCall called
  obtain ⟨setting, intake, outlet, between, stands, -⟩ := copies.stands
  obtain ⟨rfl, rfl⟩ :=
    stands.finished_of_close copies.reached between accepted closes (.inr handle)
  rw [copies.total_eq, copies.dataOf_of_ended stands rfl]

/-- At rest a closed handle has its native file closed, once. -/
theorem carriesOut_of_rest (copies : Copies contents old a b w) (rest : w.AtRest) {h : HandleId}
    {s : Handle} (known : w.handles[h]? = some s) (closed : s.closed = true) :
    ∃ other ∈ w.accepted, other.Closes ∧ other.handle = h ∧ w.CarriesOut other := by
  obtain ⟨setting, intake, outlet, -, stands, sound⟩ := copies.stands
  obtain ⟨other, accepted, closes, handle⟩ :=
    copies.reached.closedByClose h s.core (World.books_handles known) closed
  obtain ⟨c, completed, ticket⟩ :=
    copies.reached.sound.completed_of_rest (stands.isAlive sound) rest accepted
  exact ⟨other, accepted, closes, handle,
    carriesOut_of_completed copies.reached accepted closes completed ticket⟩

/-- At rest the end of the copying was told once. -/
theorem countP_of_rest (copies : Copies contents old a b w) (rest : w.AtRest) :
    w.history.countP isReport = 1 := by
  obtain ⟨setting, stands, sound⟩ := copies.finished_of_rest rest
  obtain ⟨t, known, isDestination⟩ := stands.destination?
  obtain ⟨other, accepted, closes, handle, carried⟩ :=
    copies.carriesOut_of_rest rest known isDestination.closed
  rw [countP_isReport (stands.smooth sound.smooth)]
  show w.handlerCalls.length = 1
  -- whatever handler was called is that of the one close of the destination
  have all : w.callsOf other.id = w.handlerCalls := by
    refine List.filter_eq_self.mpr fun call called => decide_eq_true ?_
    obtain ⟨other', accepted', closes', handle', number⟩ := copies.closes_of_handlerCall called
    rw [number, copies.reached.sound.closing.once other' accepted' other accepted closes' closes
      (handle'.trans handle.symm)]
  rw [← all]
  refine carried.called ?_
  have own := stands.own accepted
  rcases own.of_ticket rfl with
    ⟨source, -⟩ | ⟨destination, ⟨n, send⟩ | ⟨handler, close, -⟩⟩
  · rw [handle] at source
    cases source
  · rw [Job.Closes, send] at closes
    cases closes
  · rw [close]
    rfl

end Copies

end Copying

end PinnedFile
