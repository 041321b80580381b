/-
  PinnedFile.Proofs.PositionalReads

  A read at a position, from the request to its handler.

  A read is accepted only if what it can find has room in its target.  Its native calls collect
  a range of the file piece by piece, and what they have collected is put into the target in one
  go, when the outcome is delivered.  So the handler gets the target with the range in it, or as
  it was if the range is empty, or the failure that ended the calls.
-/

import PinnedFile.Proofs.Deeds
import PinnedFile.Proofs.Handlers
import PinnedFile.Proofs.Pieces

namespace PinnedFile

open Run

/-! ## Room in the target -/

/-- What a read can find has room in its target. -/
def Job.HasRoom (a : Job) : Prop :=
  ∀ target offset handler, a.completion = .read target offset handler →
    ∃ p n, a.transfer = .ofRead p n ∧ Buffer.fits n offset = true

/-- If a read is accepted, there is room for what it can find. -/
def Event.HasRoom (event : Event) : Prop := ∀ a, event = .accepted a → a.HasRoom

variable {mode : Mode} {w after : World} {h : HandleId}

theorem Job.hasRoom_of_operation {a : Job} (other : a.completion.operation ≠ .read) :
    a.HasRoom := by
  intro target offset handler reads
  rw [reads] at other
  exact absurd rfl other

/-- What is no acceptance tells of no read that is accepted. -/
theorem Event.hasRoom_of_other {event : Event} (other : event.accepted? = none) :
    event.HasRoom := by
  rintro a rfl
  cases other

theorem Event.hasRoom_of_call {event : Event} (called : event.IsCallFor h) : event.HasRoom := by
  rintro a rfl
  cases called

theorem Job.hasRoom_of_chunk {a : Job} (chunk : a.completion = .chunk) : a.HasRoom := by
  intro target offset handler reads
  rw [chunk] at reads
  cases reads

namespace World

/-- All reads that are accepted on the way have room in their targets. -/
def KeepsRoom (w after : World) : Prop := Notes (·.event.HasRoom) w after

theorem keepsRoom_submit (job : Job) : KeepsRoom w (w.submit job) := by
  unfold submit
  split
  · exact notes_record (w := { w with jobs := _ }) (Event.hasRoom_of_other rfl)
  · exact notes_refl

theorem keepsRoom_accept {t : Transfer} {c : Completion}
    (room : (w.accept h t c).1.HasRoom) : KeepsRoom w (w.accept h t c).2 := by
  refine ⟨[_], rfl, fun _ listed => List.mem_singleton.mp listed ▸ ?_⟩
  rintro a same
  obtain rfl := Event.accepted.inj same
  exact room

theorem keepsRoom_enqueue {t : Transfer} {c : Completion}
    (room : (w.accept h t c).1.HasRoom) : KeepsRoom w (w.enqueue h t c) := by
  have submitted : KeepsRoom (w.accept h t c).2 (w.enqueue h t c) := keepsRoom_submit _
  exact (keepsRoom_accept room).trans submitted

theorem keepsRoom_close {handler : Option (Callback Command)}
    (ok : w.close h handler = .ok after) : KeepsRoom w after := by
  obtain ⟨s, -, rfl⟩ := except_map_eq_ok.mp ok
  have accepted : KeepsRoom w (w.accept h .close (.close (handler.map w.handler))).2 :=
    keepsRoom_accept (Job.hasRoom_of_operation nofun)
  dsimp only
  split
  · have submitted : KeepsRoom _ (World.submit _ _) := keepsRoom_submit
      (w := (w.accept h .close (.close (handler.map w.handler))).2.modifyHandle h
        ({ · with closed := true }))
      (w.accept h .close (.close (handler.map w.handler))).1
    exact accepted.trans submitted
  · exact accepted

theorem keepsRoom_readingOn : KeepsRoom w (w.readingOn h) := by
  rcases w.readingOn_cases h with same | ⟨stream, -, -, started⟩
  · rw [same]
    exact notes_refl
  · rw [started]
    rcases w.startingRead_cases h stream with ⟨-, large⟩ | ⟨-, fits⟩
    · rw [large]
      exact notes_refl
    · have begun : KeepsRoom (w.modifyReader h ({ · with busy := true })) _ :=
        keepsRoom_enqueue (h := h) (t := .ofRead stream.position stream.chunkSize) (c := .chunk)
          (Job.hasRoom_of_chunk rfl)
      rw [fits]
      exact begun

/-- There is room in the target of a read that is requested, or it is refused. -/
theorem fits_of_read {target : Bytes} {offset position length : Nat} {handler : Callback Command}
    (ok : w.read h target offset position length handler = .ok after) :
    Buffer.fits length offset = true := by
  unfold read at ok
  split at ok
  · cases ok
  · split at ok
    next fits => exact fits
    · cases ok

end World

open World in
theorem Move.keepsRoom (move : Move w after) : KeepsRoom w after := by
  cases move with
  | openMemory accepted | openBackend held accepted =>
    obtain ⟨owner, -, rfl⟩ := except_map_eq_ok.mp accepted
    exact notes_of_same history_setSlot
  | openPath accepted => exact notes_of_same (history_openPath accepted)
  | keep | giveUp => exact notes_of_same history_setSlotHandle
  | read accepted =>
    have fits := fits_of_read accepted
    obtain ⟨s, -, rfl⟩ := exists_read accepted
    refine keepsRoom_enqueue fun target offset handler same => ?_
    obtain ⟨rfl, rfl, rfl⟩ := Completion.read.inj same
    exact ⟨_, _, rfl, fits⟩
  | write accepted | flush accepted =>
    obtain ⟨s, -, rfl⟩ := except_map_eq_ok.mp accepted
    exact keepsRoom_enqueue (Job.hasRoom_of_operation fun read => by cases read)
  | send got accepted =>
    obtain ⟨s, -, rfl⟩ := except_map_eq_ok.mp accepted
    exact keepsRoom_enqueue (Job.hasRoom_of_operation fun read => by cases read)
  | close accepted => exact keepsRoom_close accepted
  | readStream f accepted | writeStream f accepted =>
    obtain ⟨s, -, rfl⟩ := except_map_eq_ok.mp accepted
    exact notes_of_same history_setSlot
  | listen accepted | resume accepted paused =>
    obtain ⟨s, -, rfl⟩ := except_map_eq_ok.mp accepted
    exact keepsRoom_readingOn
  | clearData accepted | onEnd accepted | onReadFailure accepted | pause accepted
  | resumeFlowing accepted flowing | setQueueMax accepted | onWriteFailure accepted =>
    obtain ⟨s, -, rfl⟩ := except_map_eq_ok.mp accepted
    exact notes_refl
  | setChunkSize accepted =>
    obtain ⟨s, -, -, rfl⟩ := exists_setChunkSize accepted
    exact notes_refl
  | awaitDrain accepted waits =>
    obtain ⟨s, -, rfl⟩ := except_map_eq_ok.mp accepted
    exact ⟨[_], rfl, fun _ listed => List.mem_singleton.mp listed ▸ Event.hasRoom_of_other rfl⟩
  | drainAtOnce accepted drained =>
    obtain ⟨s, -, rfl⟩ := except_map_eq_ok.mp accepted
    refine ⟨[_, _], rfl, fun _ listed => ?_⟩
    rcases List.mem_pair.mp listed with rfl | rfl
    · exact Event.hasRoom_of_other rfl
    · exact Event.hasRoom_of_other rfl
  | hold | adjust | execute | strand => exact notes_refl
  | drained here waiting drained =>
    exact ⟨[_], rfl, fun _ listed => List.mem_singleton.mp listed ▸ Event.hasRoom_of_other rfl⟩
  | sweep => exact notes_of_same history_sweep
  | shutDown origin =>
    refine ⟨[⟨w.context, .shutDown, w.handles⟩], history_sweep, fun _ listed => ?_⟩
    rw [List.mem_singleton.mp listed]
    exact Event.hasRoom_of_other rfl
  | ran | panicking => exact notes_record (Event.hasRoom_of_other rfl)

open World in
theorem Chore.keepsRoom (chore : Chore w after) : KeepsRoom w after := by
  cases chore with
  | move move => exact move.keepsRoom
  | delivered id => exact notes_record (Event.hasRoom_of_other rfl)
  | goOn here => exact keepsRoom_readingOn
  | closeIfQuiet k =>
    rw [Run.closeIfQuiet, exec_get_bind]
    split
    · exact notes_refl
    · split
      · split
        · exact notes_refl
        next job waits =>
          exact keepsRoom_submit (w := w.modifyHandle k ({ · with pendingClose := none })) job
      · exact notes_refl
  | post | switch => exact notes_refl

open World in
theorem Deed.keepsRoom (deed : Deed w after) : KeepsRoom w after := by
  cases deed with
  | chore chore => exact chore.keepsRoom
  | start task =>
    cases task with
    | deliver => exact notes_refl
    | client | later => exact notes_record (Event.hasRoom_of_other rfl)
  | tell here =>
    exact notes_told_of_calls (fun _ _ => Event.hasRoom_of_other rfl)
      fun _ => Event.hasRoom_of_call

/-- Every read that was accepted has room in its target. -/
theorem Reachable.hasRoom (reached : Reachable mode w) {a : Job} (accepted : a ∈ w.accepted) :
    a.HasRoom := by
  have all : ∀ e ∈ w.history, e.event.HasRoom := by
    have kept {v v' : World} (keeps : World.KeepsRoom v v')
        (before : ∀ e ∈ v.history, e.event.HasRoom) : ∀ e ∈ v'.history, e.event.HasRoom := by
      obtain ⟨new, added, room⟩ := keeps
      rw [added]
      exact fun e listed => (List.mem_append.mp listed).elim (room e) (before e)
    refine Reachable.deeds_induct (P := fun w => ∀ e ∈ w.history, e.event.HasRoom)
      (fun _ _ _ listed => absurd listed List.not_mem_nil)
      (fun w after _ before deed => kept deed.keepsRoom before)
      (fun w task rest next plain before => before)
      (fun w job outcome rest next _ before => ?_) (fun w after takes _ before => ?_)
      (fun w job call a files backends running makes _ before => ?_)
      (fun w job outcome running ended _ before => ?_) reached
    · exact kept (v := w.delivering job outcome rest)
        (notes_record (Event.hasRoom_of_other rfl)) before
    · obtain ⟨id, added⟩ := World.history_takeJob takes
      exact kept ⟨[_], added, fun _ listed => List.mem_singleton.mp listed ▸
        Event.hasRoom_of_other rfl⟩ before
    · exact kept ⟨[_], World.history_answer, fun _ listed => List.mem_singleton.mp listed ▸
        Event.hasRoom_of_other rfl⟩ before
    · exact kept (notes_of_same World.history_finish) before
  obtain ⟨e, listed, found⟩ := List.mem_filterMap.mp accepted
  exact all e listed a (Event.accepted?_eq_some_iff.mp found)

/-! ## What the handler gets -/

namespace Buffer

variable {b data : Bytes} {offset n : Nat}

theorem fits_of_le {count : Nat} (fits : Buffer.fits n offset = true) (less : count ≤ n) :
    Buffer.fits count offset = true := by
  have most := of_decide_eq_true fits
  exact decide_eq_true (by omega)

end Buffer

/-- What a read has found is stored in its target. -/
theorem Run.readResult_ok {target found : Bytes} {offset : Nat}
    (fits : Buffer.fits found.length offset = true) :
    readResult target offset (.ok found) = .ok (target.store offset found) := by
  cases found with
  | nil => rw [Bytes.store_nil, readResult]
  | cons first rest =>
    rw [Bytes.store_of_ne_nil (List.cons_ne_nil first rest), readResult, Buffer.setBytes,
      if_pos fits]
    · rfl
    · exact List.cons_ne_nil first rest

/-- The handler of a read is called with the result of what its own calls came to. -/
theorem Reachable.result_of_call (reached : Reachable mode w) {a : Job} {target : Bytes}
    {offset : Nat} {handler : Handler} {call : HandlerCall} (accepted : a ∈ w.accepted)
    (reads : a.completion = .read target offset handler) (called : call ∈ w.callsOf a.id) :
    ∃ u outcome, a.transfer.Made (w.books.exchangesOf a.id) (some u) ∧
      u.outcome? = some outcome ∧ call.result = readResult target offset outcome := by
  have sound := reached.sound
  obtain ⟨listed, own⟩ := List.mem_filter.mp called
  obtain ⟨a', accepted', u, outcome, made, ended, calls⟩ := sound.origin_of_call listed
  obtain ⟨loose, accounted, -⟩ := sound.accounted
  have number : a'.id = a.id :=
    (Books.operation_of_handlerCall calls).symm.trans (of_decide_eq_true own)
  obtain rfl := accounted.eq_of_id accepted' accepted number
  refine ⟨u, outcome, made, ended, ?_⟩
  rw [Job.handlerCall?, reads] at calls
  exact congrArg HandlerCall.result (Option.some.inj calls).symm

/-- A read that is accepted is an operation on its handle, with the position and the length that
    the client has named, and its outcome is for the target at the offset that it has named. -/
theorem World.accepted_read {h : HandleId} {target : Bytes} {offset position length : Nat}
    {handler : Callback Command} {after : World}
    (ok : w.read h target offset position length handler = .ok after) :
    after.accepted = ⟨w.nextOperation, h, .ofRead position length,
      .read target offset (w.handler handler)⟩ :: w.accepted := by
  obtain ⟨s, -, rfl⟩ := World.exists_read ok
  exact World.accepted_enqueue

/-- A read at a position, whatever pieces of its range the backend returns at a time.  It calls
    for what is not reported yet, and never for a byte outside of its range; once all that the
    file has of the range is reported it makes at most one call more that is not cut short, and
    none if it has all that it asked for.  It does not break off, and it makes no more calls that
    are not cut short than there are bytes in the range, and one.  The handler is called at most
    once, and in a calm run at rest it has been called: with the range stored in the target, which
    is the target itself if the range is empty, or with the failure of a call that failed. -/
theorem reads_land_in_their_target (reached : Reachable mode w) {a : Job} {target : Bytes}
    {offset : Nat} {handler : Handler} (accepted : a ∈ w.accepted)
    (reads : a.completion = .read target offset handler) :
    ∃ p n, a.transfer = .ofRead p n ∧ Buffer.fits n offset = true ∧
      (∀ newer e older, w.books.exchangesOf a.id = newer ++ e :: older →
        moved older < n ∧ e.call = .read (p + moved older) (n - moved older)) ∧
      (w.callsOf a.id).length ≤ 1 ∧
      (mode = .calm → w.IsAlive → w.AtRest → (w.callsOf a.id).length = 1) ∧
      ∀ contents : Bytes, contents.length < Transfer.wordLimit →
        (∀ e ∈ w.books.exchangesOf a.id,
          e.call.ReadsFrom contents e.answer ∧ e.answer.returns = true) →
        (∃ u, a.transfer.Made (w.books.exchangesOf a.id) (some u)) ∧
        (∀ newer older, w.books.exchangesOf a.id = newer ++ older →
          (contents.window p n).length ≤ moved older →
          (uninterrupted newer).length ≤ 1 ∧ (n ≤ moved older → newer = [])) ∧
        (uninterrupted (w.books.exchangesOf a.id)).length ≤ (contents.window p n).length + 1 ∧
        ∀ call ∈ w.callsOf a.id,
          ((∀ e ∈ w.books.exchangesOf a.id, e.answer.failure? = none) →
            call.result = .ok (target.store offset (contents.window p n))) ∧
          ∀ e ∈ w.books.exchangesOf a.id, ∀ error, e.answer.failure? = some error →
            call.result = .error (.native .read error) := by
  have sound := reached.sound
  obtain ⟨p, n, transfer, fits⟩ := reached.hasRoom accepted target offset handler reads
  obtain ⟨r, made⟩ := sound.traced.made a accepted
  rw [transfer] at made
  refine ⟨p, n, transfer, fits, fun newer e older split => ?_, sound.callsOf_le_one a.id, ?_, ?_⟩
  · rw [split] at made
    exact made.call_of_gathered
  · rintro rfl alive rest
    have handled : a.completion.handler?.isSome = true := by rw [reads]; rfl
    exact Nat.le_antisymm (sound.callsOf_le_one a.id)
      (List.length_pos_of_ne_nil (sound.called_of_rest alive rest accepted handled))
  · intro contents short answered
    have honest := fun e listed => (answered e listed).1
    obtain ⟨u, rfl⟩ := made.exists_of_read honest short fun e listed => (answered e listed).2
    refine ⟨⟨u, transfer ▸ made⟩, fun newer older split all => made.few_after_last honest split all,
      made.length_uninterrupted_le honest, fun call called => ?_⟩
    obtain ⟨u', outcome, made', ended, result⟩ := reached.result_of_call accepted reads called
    rw [transfer] at made'
    obtain ⟨succeeds, fails⟩ := made'.outcome_of_read honest ended
    constructor
    · intro none
      rw [result, succeeds none]
      apply readResult_ok
      apply Buffer.fits_of_le fits
      rw [Bytes.length_window]
      exact Nat.min_le_left n _
    · intro e listed error failed
      rw [result, fails e listed error failed]
      rfl

/-- A run in which four bytes are read from a file of five: the first call is cut short, the
    second returns one byte, the third the last that there is, and the fourth finds the end. -/
def positionalRun : Option World :=
  (World.start 1 ⟨[], []⟩).follow
    [.body 0 [
      .openFile 0 { read := true } .log (.memory (.bytes [1, 2, 3, 4, 5]) none {}),
      .read 0 (.bytes [9, 9]) 3 3 4 ⟨"read", [], []⟩],
    .take, .answer 0 (.failed (.bare .interrupted)), .answer 0 (.moved 1 [4]),
    .answer 0 (.moved 1 [5]), .answer 0 (.moved 0 []), .finish 0, .task]

theorem four_bytes_land_behind_a_gap : ∃ w a handler, positionalRun = some w ∧
    a ∈ w.accepted ∧ a.completion = .read [9, 9] 3 handler ∧
    (w.books.exchangesOf a.id).map (fun e => (e.call, e.answer)) =
      [(.read 5 2, .moved 0 []), (.read 4 3, .moved 1 [5]), (.read 3 4, .moved 1 [4]),
        (.read 3 4, .failed (.bare .interrupted))] ∧
    (w.callsOf a.id).length = 1 ∧
    ∀ call ∈ w.callsOf a.id, call.result = .ok [9, 9, 0, 4, 5] := by
  have stands : (positionalRun.any fun w => w.restsUp && w.accepted.any fun a =>
      (match a.completion with
        | .read target offset _ => decide (target = [9, 9] ∧ offset = 3)
        | .write .. | .flush .. | .close .. | .chunk | .send .. => false) &&
      (match a.transfer with
        | .read p n _ _ => decide (p = 3 ∧ n = 4)
        | _ => false) &&
      (w.books.exchangesOf a.id).map (fun e => (e.call, e.answer)) =
        [(.read 5 2, .moved 0 []), (.read 4 3, .moved 1 [5]), (.read 3 4, .moved 1 [4]),
          (.read 3 4, .failed (.bare .interrupted))] &&
      (w.books.exchangesOf a.id).all fun e =>
        decide (e.call.ReadsFrom [1, 2, 3, 4, 5] e.answer) && e.answer.returns &&
          e.answer.failure?.isNone) = true := by decide +kernel
  obtain ⟨w, run, stands⟩ := (Option.any_eq_true _ _).mp stands
  simp only [Bool.and_eq_true, List.any_eq_true, List.all_eq_true, decide_eq_true_eq,
    Option.isNone_iff_eq_none] at stands
  obtain ⟨rests, a, accepted, ⟨⟨reads, bounds⟩, calls⟩, answered⟩ := stands
  obtain ⟨alive, rest⟩ := World.rest_of_restsUp rests
  have reached : Reachable .calm w := World.reachable_of_follow run
  obtain ⟨handler, completion⟩ : ∃ handler, a.completion = .read [9, 9] 3 handler := by
    split at reads
    next target offset handler same =>
      obtain ⟨rfl, rfl⟩ := of_decide_eq_true reads
      exact ⟨handler, same⟩
    all_goals cases reads
  obtain ⟨p, n, same, -, -, -, once, all⟩ :=
    reads_land_in_their_target reached accepted completion
  obtain ⟨rfl, rfl⟩ : p = 3 ∧ n = 4 := by
    rw [same, Transfer.ofRead] at bounds
    exact of_decide_eq_true bounds
  obtain ⟨-, -, -, results⟩ := all [1, 2, 3, 4, 5] (by decide) fun e listed => (answered e listed).1
  refine ⟨w, a, handler, run, accepted, completion, calls, once rfl alive rest,
    fun call called => ?_⟩
  exact (results call called).1 fun e listed => (answered e listed).2

end PinnedFile
