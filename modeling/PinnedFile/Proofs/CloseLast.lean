/-
  PinnedFile.Proofs.CloseLast

  A close is the last operation of its handle that the client is told of.

  The native close begins only when nothing that counts is undelivered, so whatever counts was
  delivered before the close is.  A write of no bytes counts for nothing: it is delivered
  first if there is a single worker, since then nothing overtakes anything; with more of them
  the close can overtake it.
-/

import PinnedFile.Proofs.Histories
import PinnedFile.Proofs.NativeClose

namespace PinnedFile

/-- A write that has nothing to write. -/
def Job.IsEmptyWrite (a : Job) : Prop :=
  a.completion.operation = .write ∧ a.completion.outstanding = 0

/-- Neither stream of a handle has a registration. -/
def Handle.HasNoRegistrations (s : Handle) : Prop :=
  (∀ r, s.reader = some r → r.data = none ∧ r.failure = none ∧ r.ending = none) ∧
  ∀ stream, s.writer = some stream → stream.drain = none ∧ stream.failure = none

theorem Handle.hasNoRegistrations_unregistered (s : Handle) :
    s.unregistered.HasNoRegistrations := by
  constructor
  · intro r made
    obtain ⟨before, -, rfl⟩ := Option.map_eq_some_iff.mp made
    exact ⟨rfl, rfl, rfl⟩
  · intro stream made
    obtain ⟨before, -, rfl⟩ := Option.map_eq_some_iff.mp made
    exact ⟨rfl, rfl⟩

/-- What counts for nothing is a close or writes nothing. -/
theorem Job.closes_or_isEmptyWrite {a : Job} (bytes : a.completion.outstanding = 0)
    (operations : a.completion.inFlight = 0) : a.Closes ∨ a.IsEmptyWrite := by
  unfold Closes IsEmptyWrite
  cases completion : a.completion with
  | write n handler | send n =>
    rw [completion] at bytes
    exact .inr ⟨rfl, bytes⟩
  | read | chunk | flush =>
    rw [completion] at operations
    cases operations
  | close handler => exact .inl rfl

namespace Books

variable {mode : Mode} {b : Books} {loose : List Job} {h : HandleId} {s : Handle} {job a : Job}
  {outcome : Outcome}

/-! ## When a close is about to be delivered -/

/-- A close whose outcome waits for the loop has made its native call. -/
theorem Sound.begun_of_posted (sound : Sound mode b)
    (posted : .deliver job outcome ∈ b.tasks.items) (closes : job.Closes) :
    b.Begun job.handle := by
  obtain ⟨loose, accounted, -⟩ := sound.accounted
  obtain ⟨a, accepted, ticket, made⟩ :=
    sound.traced.underway job (underway_of_posted posted)
  have closes' : a.Closes := (Job.closes_congr ticket).mpr closes
  rw [(sound.traced.fits a accepted).close_iff.mpr closes'] at made
  rcases calls : b.exchangesOf a.id with _ | ⟨e, older⟩
  · -- without a call it would be as it was accepted, and not be posted
    rw [calls] at made
    have ended := sound.traced.ended job outcome posted
    generalize job.transfer = t at made ended
    cases made
    cases ended
  · rw [calls] at made
    obtain ⟨v, before, makes, -⟩ := made.cons
    have own : e ∈ b.exchangesOf a.id := by
      rw [calls]
      exact List.mem_cons_self
    obtain ⟨listed, number⟩ := List.mem_filter.mp own
    obtain ⟨a', accepted', number', handle⟩ := sound.traced.exchanged e listed
    obtain rfl := accounted.eq_of_id accepted' accepted
      (number'.trans (of_decide_eq_true number))
    refine .inl (List.ne_nil_of_mem (a := e) (List.mem_filter.mpr ⟨listed, decide_eq_true ?_⟩))
    exact ⟨handle.symm.trans (congrArg Ticket.handle ticket), before.call_of_close makes⟩

/-- Nothing undelivered counts on a quiet handle. -/
theorem Sound.load_of_quiet (sound : Sound mode b) (known : b.handles[h]? = some s)
    (quiet : s.isQuiet = true) (undelivered : a ∈ b.undelivered h) :
    a.completion.outstanding = 0 ∧ a.completion.inFlight = 0 := by
  obtain ⟨loose, accounted, -⟩ := sound.accounted
  have counts : s.outstanding = 0 ∧ s.inFlight = 0 := by simpa [Handle.isQuiet] using quiet
  have bytes := (sound.counted .bytes).of_eq_undelivered accounted known
  have operations := (sound.counted .operations).of_eq_undelivered accounted known
  rw [show Counter.bytes.of s = 0 from counts.1, eq_comm, List.sum_eq_zero_iff_forall_eq_nat]
    at bytes
  rw [show Counter.operations.of s = 0 from counts.2, eq_comm,
    List.sum_eq_zero_iff_forall_eq_nat] at operations
  exact ⟨bytes _ (List.mem_map_of_mem undelivered), operations _ (List.mem_map_of_mem undelivered)⟩

/-- What counts was delivered before the close of its handle is. -/
theorem Sound.delivered_of_load (sound : Sound mode b)
    (posted : .deliver job outcome ∈ b.tasks.items) (closes : job.Closes)
    (accepted : a ∈ b.accepted) (same : a.handle = job.handle) (other : ¬ a.Closes)
    (loaded : ¬ a.IsEmptyWrite) : a.id ∈ b.delivered := by
  obtain ⟨s, known, -, quiet⟩ := sound.quiet_of_begun (sound.begun_of_posted posted closes)
  by_contra undelivered
  have listed : a ∈ b.undelivered job.handle :=
    List.mem_filter.mpr ⟨accepted, decide_eq_true ⟨same, undelivered⟩⟩
  obtain ⟨bytes, operations⟩ := sound.load_of_quiet known quiet listed
  rcases Job.closes_or_isEmptyWrite bytes operations with isClose | isEmpty
  · exact other isClose
  · exact loaded isEmpty

/-- As long as all is up, what is undelivered in a calm run is on its way. -/
theorem Sound.underway_of_undelivered (sound : Sound .calm b) (alive : b.IsAlive)
    (undelivered : a ∈ b.undelivered h) : ∃ job ∈ b.underway, job.ticket = a.ticket := by
  obtain ⟨loose, accounted, none_lost⟩ := sound.accounted
  obtain rfl := none_lost rfl alive
  have listed := ticket_mem_bag undelivered
  rw [bag_undelivered accounted, List.append_nil] at listed
  exact List.mem_map.mp (Multiset.mem_coe.mp (Multiset.mem_filter.mp listed).1)

/-- With a single worker whatever was accepted on a handle is delivered before its close. -/
theorem Sound.delivered_of_single {rest : Queue Task} (sound : Sound .calm b)
    (single : b.workers ≤ 1) (next : b.tasks.pop = some (.deliver job outcome, rest))
    (closes : job.Closes) (accepted : a ∈ b.accepted) (same : a.handle = job.handle)
    (other : ¬ a.Closes) : a.id ∈ b.delivered := by
  -- the loop still runs tasks, so nothing was shut down, and nothing is lost
  obtain ⟨items, -⟩ := Queue.pop_eq_some_iff.mp next
  have alive : b.IsAlive := by
    have isOpen : b.tasks.isOpen = true := by rw [items]
    exact ⟨sound.together.trans isOpen, isOpen⟩
  by_contra undelivered
  obtain ⟨there, listed, ticket⟩ := sound.underway_of_undelivered alive
    (List.mem_filter.mpr ⟨accepted, decide_eq_true ⟨same, undelivered⟩⟩)
  have notClose : ¬ there.Closes := mt (Job.closes_congr ticket).mp other
  have handle : there.handle = job.handle := (congrArg Ticket.handle ticket).trans same
  rcases List.mem_append.mp listed with piped | waiting
  · -- the close is the first in the pipeline, and behind it there is nothing of its handle
    have line := sound.inLine single
    have inPipeline : there.ticket ∈ b.pipeline := mem_pipeline.mpr ⟨there, rfl, piped⟩
    have first : b.pipeline = job.ticket ::
        (rest.items.filterMap Task.job? ++ b.running ++ b.jobs.items).map Job.ticket := by
      rw [pipeline, items]
      rfl
    rw [InLine, first] at line
    rw [first] at inPipeline
    rcases List.mem_cons.mp inPipeline with itself | behind
    · exact notClose ((Job.closes_congr itself).mpr closes)
    · exact (List.pairwise_cons.mp line).1 there.ticket behind closes handle.symm
  · obtain ⟨s, known, waits⟩ := List.mem_filterMap.mp waiting
    obtain ⟨k, found⟩ := List.mem_iff_getElem?.mp known
    exact notClose (sound.closing.waiting k s there found waits).closes

/-- Whatever is visible to the close of its handle was delivered before the close is. -/
theorem Sound.delivered_before_close {rest : Queue Task} (sound : Sound .calm b)
    (next : b.tasks.pop = some (.deliver job outcome, rest)) (closes : job.Closes)
    (accepted : a ∈ b.accepted) (same : a.handle = job.handle) (other : ¬ a.Closes)
    (visible : a.IsEmptyWrite → b.workers ≤ 1) : a.id ∈ b.delivered := by
  by_cases isEmpty : a.IsEmptyWrite
  · exact sound.delivered_of_single (visible isEmpty) next closes accepted same other
  · exact sound.delivered_of_load (Queue.mem_of_pop next) closes accepted same other isEmpty

/-- The handler of an operation that is delivered was called. -/
theorem Sound.called_of_delivered (sound : Sound mode b) (accepted : a ∈ b.accepted)
    (delivered : a.id ∈ b.delivered) {handler : Handler}
    (handled : a.completion.handler? = some handler) :
    ∃ call ∈ b.handlerCalls, call.operation = a.id ∧ call.kind = a.completion.operation ∧
      call.tag = handler.tag := by
  obtain ⟨loose, accounted, -⟩ := sound.accounted
  obtain ⟨⟨job, outcome⟩, completed, number⟩ := List.mem_map.mp delivered
  obtain ⟨⟨a', accepted', ticket, -⟩, -⟩ := sound.traced.completed (job, outcome) completed
  obtain rfl := accounted.eq_of_id accepted' accepted ((congrArg Ticket.id ticket).trans number)
  have completion : job.completion = a'.completion := (congrArg Ticket.completion ticket).symm
  refine ⟨⟨job.id, job.completion.operation, handler.tag, job.completion.result outcome⟩, ?_,
    number, by rw [completion], rfl⟩
  rw [sound.called]
  refine List.mem_filterMap.mpr ⟨(job, outcome), completed, ?_⟩
  show job.handlerCall? outcome = _
  rw [Job.handlerCall?, completion, handled]
  rfl

end Books

/-! ## In a history -/

/-- The operations accepted in a part of a history, the latest first. -/
def acceptedIn (history : List Entry) : List Job := history.filterMap (·.event.accepted?)

/-- At a moment of a history an operation is over: it was delivered before, its handler was
    called, and nothing of its delivery comes later. -/
structure IsOver (a : Job) (newer older : List Entry) : Prop where
  called : ∀ handler, a.completion.handler? = some handler →
    ∃ result, Tells older (.handled a.id a.completion.operation handler.tag result)
  delivered : Tells older (.delivered a.id)
  settled : ∀ e ∈ newer, e.event.delivery? ≠ some a.id

variable {w after : World} {newer older new : List Entry} {e : Entry} {a c : Job}

/-- What is over stays over, as long as nothing of its delivery is added. -/
theorem IsOver.append (isOver : IsOver a newer older)
    (settled : ∀ e ∈ new, e.event.delivery? ≠ some a.id) : IsOver a (new ++ newer) older where
  called := isOver.called
  delivered := isOver.delivered
  settled e listed := by
    rcases List.mem_append.mp listed with now | before
    · exact settled e now
    · exact isOver.settled e before

/-- Nothing is accepted on a handle after its close. -/
theorem accepted_before (closing : after.books.Closing) (added : after.history = new ++ w.history)
    (closeAccepted : c ∈ w.accepted) (closes : c.Closes) (accepted : a ∈ after.accepted)
    (same : a.handle = c.handle) : a ∈ w.accepted := by
  have all : after.accepted = acceptedIn new ++ w.accepted := by
    rw [World.accepted, added, List.filterMap_append]
    rfl
  have last : (acceptedIn new ++ w.accepted).Pairwise
      fun newer older => older.Closes → older.handle ≠ newer.handle := all ▸ closing.last
  rw [all] at accepted
  rcases List.mem_append.mp accepted with now | before
  · exact absurd same.symm ((List.pairwise_append.mp last).2.2 a now c closeAccepted closes)
  · exact before

/-- When the handler of a close is called all else on its handle is over, and no
    registration is left on the streams. -/
structure IsLast (w : World) (newer older : List Entry) (e : Entry) (c : Job) : Prop where
  accepted : c ∈ acceptedIn older
  closes : c.Closes
  others : ∀ a ∈ w.accepted, a.handle = c.handle → a ≠ c → (a.IsEmptyWrite → w.workers ≤ 1) →
    IsOver a newer older
  bare : ∃ s, e.handles[c.handle]? = some s ∧ s.HasNoRegistrations

/-- What was said when the handler of a close was called can be said ever after. -/
theorem IsLast.later (last : IsLast w newer older e c) (split : w.history = newer ++ e :: older)
    (added : after.history = new ++ w.history) (closing : after.books.Closing)
    (workers : after.workers = w.workers)
    (settled : ∀ id, Tells w.history (.delivered id) → ∀ e ∈ new, e.event.delivery? ≠ some id) :
    IsLast after (new ++ newer) older e c where
  accepted := last.accepted
  closes := last.closes
  bare := last.bare
  others a accepted same other visible := by
    have closeAccepted : c ∈ w.accepted := by
      rw [World.accepted, split, List.filterMap_append]
      exact List.mem_append_right _
        ((List.sublist_cons_self e older).filterMap _ |>.mem last.accepted)
    have before := accepted_before closing added closeAccepted last.closes accepted same
    rw [workers] at visible
    have isOver := last.others a before same other visible
    refine isOver.append (settled a.id ?_)
    have told := isOver.delivered.append (newer ++ [e])
    rwa [List.append_assoc, List.singleton_append, ← split] at told

/-- The delivery of a close makes it the last operation of its handle. -/
theorem Delivers.isLast {job : Job} {outcome : Outcome} {rest : Queue Task}
    {middle : List Entry} {id : OperationId} {tag : String} {result : Except FileError Bytes}
    (delivers : Delivers .calm w after job outcome rest) (reached : Reachable .calm w)
    (reachedAfter : Reachable .calm after)
    (added : after.history = (newer ++ e :: middle) ++ w.history)
    (noted : ∀ e' ∈ newer ++ e :: middle, e'.OfDelivery (w.delivering job outcome rest) job outcome)
    (workers : after.workers = w.workers) (called : e.event = .handled id .close tag result) :
    ∃ c, c.id = id ∧ IsLast after newer (middle ++ w.history) e c := by
  have sound := reached.sound
  have posted := Queue.mem_of_pop delivers.next
  obtain ⟨c, accepted, ticket, -⟩ :=
    sound.traced.underway job (Books.underway_of_posted posted)
  have handle : c.handle = job.handle := congrArg Ticket.handle ticket
  -- the entry is the one that this delivery makes for its handler
  obtain ⟨number, closes, handles⟩ : job.id = id ∧ job.Closes ∧
      e.handles =
        (((w.delivering job outcome rest).completing job outcome).aboutToTell job).handles := by
    cases noted e (List.mem_append_right _ List.mem_cons_self) with
    | completed | delivered => cases called
    | told told =>
      have isTold := told.1
      rw [called] at isTold
      cases isTold
    | handled handled =>
      obtain ⟨number, kind, -⟩ := Event.handled.inj called
      exact ⟨number, kind, rfl⟩
  have closes' : c.Closes := (Job.closes_congr ticket).mpr closes
  refine ⟨c, (congrArg Ticket.id ticket).trans number, ?_, closes', ?_, ?_⟩
  · rw [acceptedIn, List.filterMap_append]
    exact List.mem_append_right _ accepted
  · intro a acceptedAfter same other visible
    have acceptedA := accepted_before reachedAfter.sound.closing added accepted closes'
      acceptedAfter same
    have notClose : ¬ a.Closes := fun isClose =>
      other (sound.closing.once a acceptedA c accepted isClose closes' same)
    rw [workers] at visible
    have delivered := sound.delivered_before_close delivers.next closes acceptedA
      (same.trans handle) notClose visible
    refine ⟨fun handler handled => ?_, ?_, fun e' listed => ?_⟩
    · obtain ⟨call, listed, operation, kind, tag⟩ :=
        sound.called_of_delivered acceptedA delivered handled
      obtain ⟨e', there, found⟩ := List.mem_filterMap.mp listed
      refine ⟨call.result, Tells.append ⟨e', there, ?_⟩ middle⟩
      rw [Event.handlerCall?_eq_some_iff.mp found, operation, kind, tag]
    · exact ((tells_delivered_iff reached a.id).mpr delivered).append middle
    · intro own
      rcases (noted e' (List.mem_append_left _ listed)).delivery? with none | itself
      · rw [own] at none
        cases none
      · obtain ⟨loose, accounted, -⟩ := sound.accounted
        rw [own] at itself
        exact other (accounted.eq_of_id acceptedA accepted
          ((Option.some.inj itself).trans (congrArg Ticket.id ticket).symm))
  · obtain ⟨s, known⟩ := known_of_sound sound job outcome posted
    obtain ⟨handler, completion⟩ := Completion.eq_close closes
    refine ⟨_, ?_, (s.releasing job.completion).hasNoRegistrations_unregistered⟩
    rw [handles, handle]
    simp [World.aboutToTell, completion, World.completing, World.modifyHandle, World.record,
      World.delivering, World.entered, known]

/-- When the handler of a close is called in a calm run, at any moment of its history, all
    that was accepted on its handle is over, but for writes of no bytes if there are several
    workers; and no registration is left on the streams of the handle. -/
theorem close_handler_is_last {id : OperationId} {tag : String}
    {result : Except FileError Bytes} (reached : Reachable .calm w)
    (split : w.history = newer ++ e :: older) (called : e.event = .handled id .close tag result) :
    ∃ c, c.id = id ∧ IsLast w newer older e c := by
  -- the entry was made by the last step, or it was there before and more was added
  refine Reachable.induct (P := fun w => ∀ newer older, w.history = newer ++ e :: older →
    ∃ c, c.id = id ∧ IsLast w newer older e c) ?_ ?_ reached newer older split
  · intro workers files newer older split
    cases newer <;> cases split
  · intro w after reached ih step newer older split
    have sound := reached.sound
    have reachedAfter := reached.step step
    have workers : after.workers = w.workers :=
      Books.Turns.workers (step.turns_of_sound sound)
    rcases step.notes_of_sound sound with ⟨new, added, quiet⟩ | ⟨job, outcome, rest, delivers⟩
    · rw [added] at split
      rcases append_eq_split split with ⟨middle, rfl, before⟩ | ⟨middle, rfl, -⟩
      · obtain ⟨c, number, last⟩ := ih middle older before
        refine ⟨c, number, last.later before added reachedAfter.sound.closing workers ?_⟩
        intro other _ e' listed
        rw [show e'.event.delivery? = none from quiet e' listed]
        exact (Option.some_ne_none other).symm
      · have isQuiet : e.event.delivery? = none :=
          quiet e (List.mem_append_right _ List.mem_cons_self)
        rw [called] at isQuiet
        cases isQuiet
    · obtain ⟨new, added, noted⟩ := delivers.notes
      rw [added] at split
      rcases append_eq_split split with ⟨middle, rfl, before⟩ | ⟨middle, rfl, rfl⟩
      · obtain ⟨c, number, last⟩ := ih middle older before
        refine ⟨c, number, last.later before added reachedAfter.sound.closing workers ?_⟩
        intro other told e' listed own
        rcases (noted e' listed).delivery? with none | itself
        · rw [own] at none
          cases none
        · -- what is on its way to its delivery was not delivered before
          obtain ⟨loose, accounted, -⟩ := sound.accounted
          have posted := Queue.mem_of_pop delivers.next
          have there : job ∈ w.books.underway := Books.underway_of_posted posted
          rw [own] at itself
          have delivered := (tells_delivered_iff reached other).mp told
          rw [Option.some.inj itself] at delivered
          exact accounted.not_completed (ticket_mem_bag (List.mem_append_left _ there)) delivered
      · exact delivers.isLast reached reachedAfter added noted workers called

/-- A run with two workers in which a write of no bytes is accepted before a close, and its
    worker is slower. -/
def overtakingRun : Option World :=
  (World.start 2 ⟨[], []⟩).follow
    [.body 0 [
      .openFile 0 { read := true, write := true } .log (.memory (.bytes []) none {}),
      .write 0 (.bytes []) 0 ⟨"written", [], []⟩,
      .close 0 (some ⟨"closed", [], []⟩)],
    .take, .take, .answer 1 (.moved 0 []), .finish 1, .task, .finish 0, .task]

/-- With two workers the handler of a write of no bytes can be called after that of the close
    that was accepted behind it. -/
theorem close_overtakes_empty_write : ∃ w, overtakingRun = some w ∧ Reachable .calm w ∧
    w.accepted.map (fun a => (a.id, a.completion.operation)) = [(1, .close), (0, .write)] ∧
    w.handlerCalls.map (fun call => (call.operation, call.kind)) = [(0, .write), (1, .close)] := by
  have runs : (overtakingRun.map fun w =>
      (w.accepted.map (fun a => (a.id, a.completion.operation)),
        w.handlerCalls.map fun call => (call.operation, call.kind))) =
      some ([(1, .close), (0, .write)], [(0, .write), (1, .close)]) := by decide +kernel
  obtain ⟨w, run, same⟩ := Option.map_eq_some_iff.mp runs
  obtain ⟨accepted, calls⟩ := Prod.mk.inj same
  exact ⟨w, run, World.reachable_of_follow run, accepted, calls⟩

end PinnedFile
