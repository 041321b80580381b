/-
  PinnedFile.Proofs.Histories

  What is added to the history, said once for each kind of change.

  The history only grows.  The code of a client adds events of its own, on the context that
  it runs on.  A delivery adds the events of one operation, completed, handled, delivered,
  and while it tells the client, those of the streams and of the client's code.
-/

import PinnedFile.Proofs.Books.Sound

namespace PinnedFile

open Run

/-- What was added to the history on the way from `w` to `after`, the latest first, is all
    as `P` says. -/
def Notes (P : Entry → Prop) (w after : World) : Prop :=
  ∃ new, after.history = new ++ w.history ∧ ∀ e ∈ new, P e

/-- A history, or a part of one, tells of an event. -/
def Tells (history : List Entry) (event : Event) : Prop := ∃ e ∈ history, e.event = event

/-- What has happened stays in the history. -/
theorem Tells.append {older : List Entry} {event : Event} (told : Tells older event)
    (newer : List Entry) : Tells (newer ++ older) event := by
  obtain ⟨e, listed, same⟩ := told
  exact ⟨e, List.mem_append_right newer listed, same⟩

/-- An entry of a list that was added to is one of those added or was there before. -/
theorem append_eq_split {α : Type} {new newer older history : List α} {e : α}
    (split : new ++ history = newer ++ e :: older) :
    (∃ middle, newer = new ++ middle ∧ history = middle ++ e :: older) ∨
    ∃ middle, new = newer ++ e :: middle ∧ older = middle ++ history := by
  rcases List.append_eq_append_iff.mp split with ⟨middle, one, two⟩ | ⟨rest, one, two⟩
  · exact .inl ⟨middle, one, two⟩
  · rcases rest with _ | ⟨first, middle⟩
    · exact .inl ⟨[], by rw [one, List.append_nil, List.append_nil], two.symm⟩
    · obtain ⟨rfl, rfl⟩ := List.cons.inj two
      exact .inr ⟨middle, one, rfl⟩

section Notes

variable {P Q : Entry → Prop} {w middle after : World}

theorem notes_of_same (same : after.history = w.history) : Notes P w after :=
  ⟨[], same, fun _ listed => absurd listed List.not_mem_nil⟩

theorem notes_refl : Notes P w w := notes_of_same rfl

theorem notes_record {event : Event} (noted : P ⟨w.context, event, w.handles⟩) :
    Notes P w (w.record event) :=
  ⟨[⟨w.context, event, w.handles⟩], rfl, fun _ listed => List.mem_singleton.mp listed ▸ noted⟩

theorem Notes.trans (first : Notes P w middle) (second : Notes P middle after) :
    Notes P w after := by
  obtain ⟨new, added, noted⟩ := first
  obtain ⟨new', added', noted'⟩ := second
  refine ⟨new' ++ new, by rw [added', added, List.append_assoc], fun e listed => ?_⟩
  rcases List.mem_append.mp listed with later | earlier
  · exact noted' e later
  · exact noted e earlier

theorem Notes.and (notes : Notes P w after) (also : Notes Q w after) :
    Notes (fun e => P e ∧ Q e) w after := by
  obtain ⟨new, added, first⟩ := notes
  obtain ⟨new', added', second⟩ := also
  obtain rfl : new' = new := List.append_cancel_right (added'.symm.trans added)
  exact ⟨new', added', fun e listed => ⟨first e listed, second e listed⟩⟩

theorem Notes.mono (notes : Notes P w after) (weaker : ∀ e, P e → Q e) : Notes Q w after := by
  obtain ⟨new, added, noted⟩ := notes
  exact ⟨new, added, fun e listed => weaker e (noted e listed)⟩

theorem Notes.tells (notes : Notes P w after) {event : Event} (told : Tells w.history event) :
    Tells after.history event := by
  obtain ⟨new, added, -⟩ := notes
  rw [added]
  exact told.append new

end Notes

namespace Event

/-- What the code of a client brings about. -/
def IsClients : Event → Prop
  | .accepted _ | .submitted _ | .awaited .. | .drained .. | .ran .. | .shutDown | .panicking =>
    True
  | _ => False

/-- What is brought about while a client is told of an outcome: calls of listeners and of
    the sink, and what the client does. -/
def IsTold : Event → Prop
  | .data .. | .ended .. | .failed .. | .unheard .. => True
  | event => event.IsClients

/-- What is brought about while nothing is delivered: by the code of a client, by workers, and
    by the loop as it begins a task. -/
def IsRoutine : Event → Prop
  | .native .. | .taken _ | .started _ | .later => True
  | event => event.IsClients

/-- The operation whose delivery an event belongs to. -/
def delivery? : Event → Option OperationId
  | .completed job _ => some job.id
  | .handled id .. | .delivered id => some id
  | _ => none

theorem IsClients.told {event : Event} (clients : event.IsClients) : event.IsTold := by
  cases event with
  | data | ended | failed | unheard => exact trivial
  | _ => exact clients

theorem IsCallFor.told {h : HandleId} {event : Event} (called : event.IsCallFor h) :
    event.IsTold := by
  cases event with
  | data | ended | failed | unheard | drained => exact trivial
  | _ => cases called

theorem IsTold.delivery? {event : Event} (told : event.IsTold) : event.delivery? = none := by
  cases event with
  | completed | handled | delivered => cases told
  | _ => rfl

theorem IsClients.routine {event : Event} (clients : event.IsClients) : event.IsRoutine := by
  cases event with
  | native | taken | started | later => exact trivial
  | _ => exact clients

theorem IsRoutine.delivery? {event : Event} (routine : event.IsRoutine) :
    event.delivery? = none := by
  cases event with
  | completed | handled | delivered => cases routine
  | _ => rfl

end Event

/-- What the code of a client brings about on a context. -/
def Entry.IsClients (context : Option ContextId) (e : Entry) : Prop :=
  e.event.IsClients ∧ e.context = context

/-- What is brought about on a context while a client is told of an outcome. -/
def Entry.IsTold (context : Option ContextId) (e : Entry) : Prop :=
  e.event.IsTold ∧ e.context = context

/-! ## The code of a client -/

namespace World

variable {w : World} {h : HandleId}

@[simp] theorem history_sweep : w.sweep.history = w.history := by
  have rounds (n : Nat) : (Nat.repeat sweepOnce n w).history = w.history := by
    induction n with
    | zero => rfl
    | succ n ih => exact ih
  exact rounds _

@[simp] theorem history_setSlot {f : Slot} {entry : SlotEntry} :
    (w.setSlot f entry).history = w.history := history_sweep

@[simp] theorem history_setSlotHandle {f : Slot} {h : Option HandleId} :
    (w.setSlotHandle f h).history = w.history := history_setSlot

/-- A job that is submitted is noted, unless the workers are shut down. -/
theorem notes_submit (job : Job) : Notes (·.IsClients w.context) w (w.submit job) := by
  unfold submit
  split
  · exact notes_record (w := { w with jobs := _ }) ⟨trivial, rfl⟩
  · exact notes_refl

theorem notes_accept {t : Transfer} {c : Completion} :
    Notes (·.IsClients w.context) w (w.accept h t c).2 :=
  ⟨[_], rfl, fun _ listed => List.mem_singleton.mp listed ▸ ⟨trivial, rfl⟩⟩

theorem notes_enqueue {t : Transfer} {c : Completion} :
    Notes (·.IsClients w.context) w (w.enqueue h t c) := by
  have submitted : Notes (·.IsClients w.context) (w.accept h t c).2 (w.enqueue h t c) :=
    notes_submit _
  exact notes_accept.trans submitted

theorem notes_close {after : World} {handler : Option (Callback Command)}
    (ok : w.close h handler = .ok after) : Notes (·.IsClients w.context) w after := by
  obtain ⟨s, -, rfl⟩ := except_map_eq_ok.mp ok
  have accepted := notes_accept (w := w) (h := h) (t := .close)
    (c := .close (handler.map w.handler))
  dsimp only
  split
  · have submitted := notes_submit
      (w := (w.accept h .close (.close (handler.map w.handler))).2.modifyHandle h
        ({ · with closed := true }))
      (w.accept h .close (.close (handler.map w.handler))).1
    exact accepted.trans submitted
  · exact accepted

/-- A stream that goes on makes the entries of the read that it begins. -/
theorem notes_readingOn {h : HandleId} : Notes (·.IsClients w.context) w (w.readingOn h) := by
  rcases w.readingOn_cases h with same | ⟨stream, -, -, started⟩
  · rw [same]
    exact notes_refl
  · rw [started]
    rcases w.startingRead_cases h stream with ⟨-, large⟩ | ⟨-, fits⟩
    · rw [large]
      exact notes_refl
    · have begun := notes_enqueue (w := w.modifyReader h ({ · with busy := true })) (h := h)
        (t := .ofRead stream.position stream.chunkSize) (c := .chunk)
      rw [fits]
      exact begun

theorem history_openPath {f : Slot} {options : OpenOptions} {sink : Sink} {path : Bytes}
    {after : World} (ok : w.openPath f options sink path = .ok after) :
    after.history = w.history := by
  obtain ⟨owner, descriptor, files, -, rfl⟩ := exists_openPath ok
  exact history_setSlot

end World

/-- The code of a client notes events of its own, on the context that it runs on. -/
theorem Move.notes {w after : World} (move : Move w after) :
    Notes (·.IsClients w.context) w after := by
  cases move with
  | openMemory accepted | openBackend held accepted =>
    obtain ⟨owner, -, rfl⟩ := except_map_eq_ok.mp accepted
    exact notes_of_same World.history_setSlot
  | openPath accepted => exact notes_of_same (World.history_openPath accepted)
  | keep | giveUp => exact notes_of_same World.history_setSlotHandle
  | write accepted | flush accepted =>
    obtain ⟨s, -, rfl⟩ := except_map_eq_ok.mp accepted
    exact World.notes_enqueue
  | read accepted =>
    obtain ⟨s, -, rfl⟩ := World.exists_read accepted
    exact World.notes_enqueue
  | close accepted => exact World.notes_close accepted
  | readStream f accepted | writeStream f accepted =>
    obtain ⟨s, -, rfl⟩ := except_map_eq_ok.mp accepted
    exact notes_of_same World.history_setSlot
  | listen accepted | resume accepted paused =>
    obtain ⟨s, -, rfl⟩ := except_map_eq_ok.mp accepted
    exact World.notes_readingOn
  | clearData accepted | onEnd accepted | onReadFailure accepted | pause accepted
  | resumeFlowing accepted flowing | setQueueMax accepted | onWriteFailure accepted =>
    obtain ⟨s, -, rfl⟩ := except_map_eq_ok.mp accepted
    exact notes_refl
  | setChunkSize accepted =>
    obtain ⟨s, -, -, rfl⟩ := World.exists_setChunkSize accepted
    exact notes_refl
  | send got accepted =>
    obtain ⟨s, -, rfl⟩ := except_map_eq_ok.mp accepted
    exact World.notes_enqueue
  | awaitDrain accepted waits =>
    obtain ⟨s, -, rfl⟩ := except_map_eq_ok.mp accepted
    exact ⟨[_], rfl, fun _ listed => List.mem_singleton.mp listed ▸ ⟨trivial, rfl⟩⟩
  | drainAtOnce accepted drained =>
    obtain ⟨s, -, rfl⟩ := except_map_eq_ok.mp accepted
    refine ⟨[_, _], rfl, fun _ listed => ?_⟩
    rcases List.mem_pair.mp listed with rfl | rfl
    · exact ⟨trivial, rfl⟩
    · exact ⟨trivial, rfl⟩
  | hold | adjust | execute | strand => exact notes_refl
  | @drained h wait waiting drained =>
    exact ⟨[_], rfl, fun _ listed => List.mem_singleton.mp listed ▸ ⟨trivial, rfl⟩⟩
  | sweep => exact notes_of_same World.history_sweep
  | shutDown origin =>
    refine ⟨[⟨w.context, .shutDown, w.handles⟩], ?_, fun _ listed => ?_⟩
    · exact World.history_sweep
    · rw [List.mem_singleton.mp listed]
      exact ⟨trivial, rfl⟩
  | ran | panicking => exact notes_record ⟨trivial, rfl⟩

theorem Moves.context {w after : World} (moves : Moves w after) : after.context = w.context :=
  Books.Moves.context moves.books

theorem Moves.notes {w after : World} (moves : Moves w after) :
    Notes (·.IsClients w.context) w after := by
  induction moves with
  | refl => exact notes_refl
  | tail before last ih =>
    -- the last move is made on the same context as the first
    have noted := last.notes
    rw [Moves.context before] at noted
    exact ih.trans noted

/-! ## Deliveries -/

/-- An entry that a delivery makes which begins in `w`: that the operation is completed,
    that its handler is called, with the handles as they are before, that it is delivered,
    or something that happens while the client is told. -/
inductive Entry.OfDelivery (w : World) (job : Job) (outcome : Outcome) : Entry → Prop
  | completed (handles : List Handle) :
      OfDelivery w job outcome ⟨w.context, .completed job outcome, handles⟩
  | handled {handler : Handler} (called : job.completion.handler? = some handler) :
      OfDelivery w job outcome ⟨w.context, .handled job.id job.completion.operation handler.tag
        (job.completion.result outcome), ((w.completing job outcome).aboutToTell job).handles⟩
  | delivered (handles : List Handle) :
      OfDelivery w job outcome ⟨w.context, .delivered job.id, handles⟩
  | told {e : Entry} (told : e.IsTold w.context) : OfDelivery w job outcome e

theorem Entry.OfDelivery.delivery? {w : World} {job : Job} {outcome : Outcome} {e : Entry}
    (belongs : e.OfDelivery w job outcome) :
    e.event.delivery? = none ∨ e.event.delivery? = some job.id := by
  cases belongs with
  | completed | handled | delivered => exact .inr rfl
  | told told => exact .inl told.1.delivery?

section Delivery

variable {w : World} {job : Job} {outcome : Outcome}

theorem notes_completing : Notes (·.OfDelivery w job outcome) w (w.completing job outcome) :=
  ⟨[_], rfl, fun _ listed => List.mem_singleton.mp listed ▸ .completed _⟩

theorem history_aboutToTell : (w.aboutToTell job).history = w.history := by
  unfold World.aboutToTell
  split <;> rfl

theorem context_aboutToTell : (w.aboutToTell job).context = w.context := by
  unfold World.aboutToTell
  split <;> rfl

theorem notes_toldHandler : Notes (·.OfDelivery w job outcome) (w.completing job outcome)
    (((w.completing job outcome).aboutToTell job).toldHandler job outcome) := by
  unfold World.toldHandler
  split
  · exact notes_of_same history_aboutToTell
  next handler called =>
    refine (notes_of_same history_aboutToTell).trans (notes_record ?_)
    rw [context_aboutToTell]
    exact .handled called

theorem context_toldHandler : (w.toldHandler job outcome).context = w.context := by
  unfold World.toldHandler
  split <;> rfl

theorem notes_toldWithoutHandler :
    Notes (·.IsTold w.context) w (w.toldWithoutHandler job outcome) := by
  obtain ⟨f, -, told | ⟨e, called, told⟩⟩ := World.callsAtMost_toldWithoutHandler w job outcome
  · rw [told]
    exact notes_refl
  · rw [told]
    exact notes_record (w := w.modifyHandle job.handle f) ⟨called.told, rfl⟩

theorem context_told : (w.told job outcome).context = w.context := by
  obtain ⟨f, -, told | ⟨e, -, told⟩⟩ := World.callsAtMost_told w job outcome
  · rw [told]
    exact context_toldHandler.trans context_aboutToTell
  · rw [told]
    exact context_toldHandler.trans context_aboutToTell

/-- What is so of the call of a handler, and of any other call for the handle, is so of all that
    is noted as the client is told. -/
theorem notes_told_of_calls {P : Event → Prop}
    (handled : ∀ handler, job.completion.handler? = some handler →
      P (.handled job.id job.completion.operation handler.tag (job.completion.result outcome)))
    (calls : ∀ e : Event, e.IsCallFor job.handle → P e) :
    Notes (fun e => P e.event) w (w.told job outcome) := by
  have begun : Notes (fun e => P e.event) w ((w.aboutToTell job).toldHandler job outcome) := by
    unfold World.toldHandler
    split
    · exact notes_of_same history_aboutToTell
    next handler found =>
      exact (notes_of_same history_aboutToTell).trans (notes_record (handled handler found))
  obtain ⟨f, -, told | ⟨e, called, told⟩⟩ := World.callsAtMost_told w job outcome
  · rw [told]
    exact begun
  · rw [told]
    exact begun.trans (notes_record (w := World.modifyHandle _ job.handle f) (calls e called))

theorem notes_told : Notes (·.OfDelivery w job outcome) (w.completing job outcome)
    ((w.completing job outcome).told job outcome) := by
  refine notes_toldHandler.trans (notes_toldWithoutHandler.mono fun e told => ?_)
  rw [context_toldHandler, context_aboutToTell] at told
  exact .told told

theorem notes_tell (job : Job) (outcome : Outcome) (here : w.OnOwner job.handle) :
    Notes (·.OfDelivery w job outcome) (w.completing job outcome)
      (exec (tell job outcome) (w.completing job outcome)).2 := by
  have moved := (moves_tell job outcome (World.onOwner_completing job outcome here)).notes
  rw [context_told] at moved
  exact notes_told.trans (moved.mono fun e clients => .told ⟨clients.1.told, clients.2⟩)

/-- While the client is told, no delivery comes to its end. -/
theorem notes_tell_undelivered (job : Job) (outcome : Outcome) (here : w.OnOwner job.handle) :
    Notes (fun e => ∀ id, e.event ≠ .delivered id) w (exec (tell job outcome) w).2 := by
  have goes_on (e : Entry) (none : e.event.delivery? = none) (id : OperationId) :
      e.event ≠ .delivered id := by
    intro same
    rw [same] at none
    cases none
  have told : Notes (fun e => ∀ id, e.event ≠ .delivered id) w (w.told job outcome) :=
    notes_told_of_calls (P := fun e => ∀ id, e ≠ .delivered id) (fun _ _ _ => nofun)
      fun e called id same => by
        rw [same] at called
        cases called
  exact told.trans ((moves_tell job outcome here).notes.mono fun e clients =>
    goes_on e clients.1.told.delivery?)

theorem context_tell (job : Job) (outcome : Outcome) (here : w.OnOwner job.handle) :
    (exec (tell job outcome) (w.completing job outcome)).2.context = w.context :=
  (moves_tell job outcome (World.onOwner_completing job outcome here)).context.trans context_told

/-- Once the operation is completed, an announcement makes the entries of a delivery. -/
theorem notes_announce (job : Job) (outcome : Outcome) (here : w.OnOwner job.handle) :
    Notes (·.OfDelivery w job outcome) (w.completing job outcome)
      (exec (announce job outcome) w).2 := by
  rw [exec_announce]
  have told := notes_tell job outcome here
  have stays := context_tell job outcome here
  rcases ends : exec (tell job outcome) (w.completing job outcome) with ⟨message | _, after⟩
  · rw [ends] at told
    rwa [exec_bind_error ends]
  · rw [ends] at told stays
    rw [exec_bind_ok ends, exec_note]
    refine told.trans (notes_record ?_)
    rw [stays]
    exact .delivered _

theorem context_announce (job : Job) (outcome : Outcome) (here : w.OnOwner job.handle) :
    (exec (announce job outcome) w).2.context = w.context :=
  Books.Moves.context (enters_announce here)

theorem delivered_of_announce (returns : (exec (announce job outcome) w).1 = .ok ()) :
    Tells (exec (announce job outcome) w).2.history (.delivered job.id) := by
  rw [exec_announce] at returns ⊢
  rcases ends : exec (tell job outcome) (w.completing job outcome) with ⟨message | _, after⟩
  · rw [exec_bind_error ends] at returns
    cases returns
  · rw [exec_bind_ok ends, exec_note]
    exact ⟨_, List.mem_cons_self, rfl⟩

theorem notes_closeIfQuiet {h : HandleId} :
    Notes (·.IsClients w.context) w (exec (closeIfQuiet h) w).2 := by
  rw [closeIfQuiet, exec_get_bind]
  split
  · exact notes_refl
  · split
    · split
      · exact notes_refl
      next job waits =>
        have submitted := World.notes_submit
          (w := w.modifyHandle h ({ · with pendingClose := none })) job
        exact submitted
    · exact notes_refl

theorem notes_readsOn : Notes (·.IsClients w.context) w (w.readsOn job outcome) := by
  unfold World.readsOn
  split
  · exact World.notes_readingOn
  · exact notes_refl

theorem context_readsOn (here : w.OnOwner job.handle) :
    (w.readsOn job outcome).context = w.context := Books.Moves.context (enters_readsOn here)

/-- After the announcement a delivery makes no entries but those of a client. -/
theorem notes_after_announce (here : w.OnOwner job.handle) : Notes (·.IsClients w.context) w
    (exec (readOn job outcome >>= fun _ => closeIfQuiet job.handle) w).2 := by
  have continued : Notes (·.IsClients w.context) w (w.readsOn job outcome) := notes_readsOn
  have stays : (w.readsOn job outcome).context = w.context := context_readsOn here
  rw [← exec_readOn] at continued stays
  rcases readsOn : exec (readOn job outcome) w with ⟨message | _, after⟩
  · rw [readsOn] at continued
    rwa [exec_bind_error readsOn]
  · rw [readsOn] at continued stays
    have closes := notes_closeIfQuiet (w := after) (h := job.handle)
    rw [exec_bind_ok readsOn]
    rw [stays] at closes
    exact continued.trans closes

/-- Once the operation is completed, a delivery makes entries of its own only. -/
theorem notes_deliver (outcome : Outcome) (here : w.OnOwner job.handle) :
    Notes (·.OfDelivery w job outcome) (w.completing job outcome)
      (exec (deliver job outcome) w).2 := by
  have announced := notes_announce job outcome here
  have stays := context_announce job outcome here
  have there := World.onOwner_announce job outcome here
  rw [exec_deliver here]
  rcases told : exec (announce job outcome) w with ⟨message | _, first⟩
  · rw [told] at announced
    rwa [exec_bind_error told]
  · -- what comes after the announcement is the code of a client, and that belongs to a delivery
    rw [told] at announced stays there
    rw [exec_bind_ok told]
    refine announced.trans ((notes_after_announce there).mono fun e clients => ?_)
    rw [stays] at clients
    exact .told ⟨clients.1.told, clients.2⟩

/-- If no callback panics, an operation that is delivered is noted as such. -/
theorem delivered_of_deliver (here : w.OnOwner job.handle)
    (returns : (exec (announce job outcome) w).1 = .ok ()) :
    Tells (exec (deliver job outcome) w).2.history (.delivered job.id) := by
  have there := World.onOwner_announce job outcome here
  have delivered := delivered_of_announce returns
  rw [exec_deliver here]
  rcases told : exec (announce job outcome) w with ⟨message | _, first⟩
  · rw [told] at returns
    cases returns
  · rw [told] at delivered there
    rw [exec_bind_ok told]
    exact (notes_after_announce there).tells delivered

end Delivery

/-! ## Steps -/

/-- A step in which the loop delivers the outcome of an operation. -/
structure Delivers (mode : Mode) (w after : World) (job : Job) (outcome : Outcome)
    (rest : Queue Task) : Prop where
  next : w.tasks.pop = some (.deliver job outcome, rest)
  notes : Notes (·.OfDelivery (w.delivering job outcome rest) job outcome) w after
  completes : Tells after.history (.completed job outcome)
  returns : mode = .calm → Tells after.history (.delivered job.id)

section Steps

variable {mode : Mode} {w after : World}

/-- The entries of a task are those of its code. -/
theorem World.history_runOn {α : Type} {context : ContextId} {holds : List HandleId}
    {code : Run α} :
    (w.runOn context holds code).2.history = (exec code (w.entered context holds)).2.history := by
  unfold runOn
  rcases ends : code.run.run { w with context := some context, held := holds } with
    ⟨message | a, after⟩
  · have same : (exec code (w.entered context holds)).2 = after := congrArg Prod.snd ends
    rw [same]
    exact history_sweep
  · have same : (exec code (w.entered context holds)).2 = after := congrArg Prod.snd ends
    rw [same]
    exact history_sweep

namespace World

theorem history_takeJob (takes : w.takeJob = some after) :
    ∃ id, after.history = ⟨w.context, .taken id, w.handles⟩ :: w.history := by
  unfold takeJob at takes
  split at takes
  · split at takes
    · cases takes
    next job rest next =>
      obtain rfl := Option.some.inj takes
      exact ⟨job.id, rfl⟩
  · cases takes

theorem history_answer {job : Job} {call : Call} {a : Answer} {files : FileTree}
    {backends : List Backend} : ({ w with files, backends }.answer job call a).history =
      ⟨w.context, .native job.id job.handle call a, w.handles⟩ :: w.history := by
  unfold answer
  dsimp only
  split <;> rfl

theorem history_finish {job : Job} {outcome : Outcome} :
    (w.finish job outcome).history = w.history := by
  unfold finish
  dsimp only
  split <;> rfl

end World

/-- Entries that belong to no delivery. -/
def Undelivering (w after : World) : Prop := Notes (·.event.delivery? = none) w after

/-- Entries that are made while nothing is delivered. -/
def Routine (w after : World) : Prop := Notes (·.event.IsRoutine) w after

theorem Routine.undelivering (routine : Routine w after) : Undelivering w after :=
  routine.mono fun _ => Event.IsRoutine.delivery?

theorem Moves.routine (moves : Moves w after) : Routine w after :=
  moves.notes.mono fun _ clients => clients.1.routine

theorem routine_runOn {α : Type} {context : ContextId} {holds : List HandleId} {code : Run α}
    (leads : Routine (w.entered context holds) (exec code (w.entered context holds)).2) :
    Routine w (w.runOn context holds code).2 := by
  obtain ⟨new, added, noted⟩ := leads
  exact ⟨new, by rw [World.history_runOn, added]; rfl, noted⟩

theorem routine_client {context : ContextId} {task : Callback Command} :
    Routine w (w.runOn context [] (World.taskCode (.client context task))).2 := by
  apply routine_runOn
  have begun : Routine (w.entered context [])
      ((w.entered context []).record (.started task.tag)) := notes_record trivial
  have ran := moves_runAll [] task.body ((w.entered context []).record (.started task.tag))
  exact begun.trans (Moves.routine ran)

/-- A step in which the loop begins to deliver the outcome of an operation, on the context of
    its handle, and does all that follows from it. -/
structure RunsDelivery (mode : Mode) (w after : World) (job : Job) (outcome : Outcome)
    (rest : Queue Task) : Prop where
  next : w.tasks.pop = some (.deliver job outcome, rest)
  here : (w.delivering job outcome rest).OnOwner job.handle
  calm : mode = .calm → (exec (announce job outcome) (w.delivering job outcome rest)).1 = .ok ()
  ends : after = ({ w with tasks := rest }.runOn (w.taskContext (.deliver job outcome)) job.holds
    (deliver job outcome)).2

/-- The entries of a delivery are those of its code. -/
theorem RunsDelivery.history {job : Job} {outcome : Outcome} {rest : Queue Task}
    (runs : RunsDelivery mode w after job outcome rest) : after.history =
      (exec (deliver job outcome) (w.delivering job outcome rest)).2.history := by
  rw [runs.ends, World.history_runOn]
  rfl

/-- A step delivers one operation, or it delivers none and makes the entries of no delivery. -/
theorem Step.routine_or_delivery (step : Step mode w after)
    (known : ∀ job outcome, .deliver job outcome ∈ w.tasks.items →
      ∃ s, w.handles[job.handle]? = some s) :
    Routine w after ∨ ∃ job outcome rest, RunsDelivery mode w after job outcome rest := by
  cases step with
  | task runs calm =>
    obtain ⟨task, rest, next, rfl⟩ := World.exists_task_of_runTask runs
    cases task with
    | deliver job outcome =>
      obtain ⟨s, found⟩ := known job outcome (Queue.mem_of_pop next)
      exact .inr ⟨job, outcome, rest, next, World.onOwner_delivering outcome rest found,
        fun isCalm => calm isCalm job outcome rest next, rfl⟩
    | client context task => exact .inl (routine_client (w := { w with tasks := rest }))
    | later context =>
      left
      apply routine_runOn (w := { w with tasks := rest })
      exact notes_record trivial
  | command context c alive => exact .inl (routine_runOn (moves_command [] c _).routine)
  | body context body alive => exact .inl (routine_runOn (moves_runAll [] body _).routine)
  | outside c => exact .inl (Moves.routine (moves_command [] c w))
  | post | postLater | freshContext | takePanic => exact .inl notes_refl
  | take takes =>
    obtain ⟨id, added⟩ := World.history_takeJob takes
    exact .inl ⟨[_], added, fun _ listed => List.mem_singleton.mp listed ▸ trivial⟩
  | answer a files backends running makes calm =>
    exact .inl ⟨[_], World.history_answer, fun _ listed => List.mem_singleton.mp listed ▸ trivial⟩
  | finish running ended => exact .inl (notes_of_same World.history_finish)
  | shutDown origin => exact .inl (Move.shutDown origin).moves.routine

theorem RunsDelivery.delivers {job : Job} {outcome : Outcome} {rest : Queue Task}
    (runs : RunsDelivery mode w after job outcome rest) :
    Delivers mode w after job outcome rest := by
  have noted : Notes (·.OfDelivery (w.delivering job outcome rest) job outcome)
      ((w.delivering job outcome rest).completing job outcome)
      (exec (deliver job outcome) (w.delivering job outcome rest)).2 :=
    notes_deliver outcome runs.here
  refine ⟨runs.next, ?_, ?_, fun isCalm => ?_⟩
  · obtain ⟨new, added, all⟩ := notes_completing.trans noted
    exact ⟨new, runs.history.trans added, all⟩
  · rw [runs.history]
    exact noted.tells ⟨_, List.mem_cons_self, rfl⟩
  · rw [runs.history]
    exact delivered_of_deliver runs.here (runs.calm isCalm)

/-- A step delivers one operation, or it delivers none and makes no entry of a delivery. -/
theorem Step.notes (step : Step mode w after)
    (known : ∀ job outcome, .deliver job outcome ∈ w.tasks.items →
      ∃ s, w.handles[job.handle]? = some s) :
    Undelivering w after ∨ ∃ job outcome rest, Delivers mode w after job outcome rest := by
  rcases step.routine_or_delivery known with routine | ⟨job, outcome, rest, runs⟩
  · exact .inl routine.undelivering
  · exact .inr ⟨job, outcome, rest, runs.delivers⟩

/-! ## Runs -/

namespace Event

theorem accepted?_eq_some_iff {event : Event} {a : Job} :
    event.accepted? = some a ↔ event = .accepted a := by
  cases event <;> simp [accepted?]

theorem completed?_eq_some_iff {event : Event} {job : Job} {outcome : Outcome} :
    event.completed? = some (job, outcome) ↔ event = .completed job outcome := by
  cases event <;> simp [completed?]

theorem handlerCall?_eq_some_iff {event : Event} {call : HandlerCall} :
    event.handlerCall? = some call ↔
      event = .handled call.operation call.kind call.tag call.result := by
  rcases call with ⟨id, kind, tag, result⟩
  cases event <;> simp [handlerCall?]

end Event

/-- The history tells which operations are completed. -/
theorem mem_delivered_iff {id : OperationId} : id ∈ w.books.delivered ↔
    ∃ job outcome, Tells w.history (.completed job outcome) ∧ job.id = id := by
  constructor
  · intro listed
    obtain ⟨⟨job, outcome⟩, completed, same⟩ := List.mem_map.mp listed
    obtain ⟨e, there, found⟩ := List.mem_filterMap.mp completed
    exact ⟨job, outcome, ⟨e, there, Event.completed?_eq_some_iff.mp found⟩, same⟩
  · rintro ⟨job, outcome, ⟨e, there, found⟩, same⟩
    exact List.mem_map.mpr ⟨(job, outcome), List.mem_filterMap.mpr
      ⟨e, there, Event.completed?_eq_some_iff.mpr found⟩, same⟩

/-- An entry that belongs to no delivery tells of none. -/
theorem Undelivering.tells (undelivering : Undelivering w after) {event : Event}
    (told : Tells after.history event) (some : event.delivery? ≠ none) :
    Tells w.history event := by
  obtain ⟨new, added, noted⟩ := undelivering
  obtain ⟨e, listed, rfl⟩ := told
  rw [added] at listed
  rcases List.mem_append.mp listed with now | before
  · exact absurd (noted e now) some
  · exact ⟨e, before, rfl⟩

/-- What is told after a delivery was told before, or is of the operation delivered. -/
theorem Delivers.tells {job : Job} {outcome : Outcome} {rest : Queue Task}
    (delivers : Delivers mode w after job outcome rest) {event : Event} {id : OperationId}
    (told : Tells after.history event) (own : event.delivery? = some id) :
    Tells w.history event ∨ id = job.id := by
  obtain ⟨new, added, noted⟩ := delivers.notes
  obtain ⟨e, listed, rfl⟩ := told
  rw [added] at listed
  rcases List.mem_append.mp listed with now | before
  · right
    rcases (noted e now).delivery? with none | other
    · rw [own] at none
      cases none
    · rw [own] at other
      exact Option.some.inj other
  · exact .inl ⟨e, before, rfl⟩

theorem Step.notes_of_sound (step : Step mode w after) (sound : Books.Sound mode w.books) :
    Undelivering w after ∨ ∃ job outcome rest, Delivers mode w after job outcome rest :=
  step.notes (known_of_sound sound)

/-- Only what is completed has been delivered. -/
theorem Reachable.completed_of_delivered (reached : Reachable mode w) {id : OperationId}
    (told : Tells w.history (.delivered id)) : id ∈ w.books.delivered := by
  suffices P : Tells w.history (.delivered id) → id ∈ w.books.delivered from P told
  refine Reachable.induct
    (P := fun w => Tells w.history (.delivered id) → id ∈ w.books.delivered) ?_ ?_ reached
  · rintro workers files ⟨e, listed, -⟩
    exact absurd listed List.not_mem_nil
  · intro w after reached ih step told
    rw [mem_delivered_iff] at ih ⊢
    -- a step that delivers tells of one operation, every other step of none
    rcases step.notes_of_sound reached.sound with quiet | ⟨job, outcome, rest, delivers⟩
    · have before := quiet.tells told (by simp [Event.delivery?])
      obtain ⟨job, outcome, completed, same⟩ := ih before
      exact ⟨job, outcome, Notes.tells quiet completed, same⟩
    · rcases delivers.tells told rfl with before | rfl
      · obtain ⟨job', outcome', completed, same⟩ := ih before
        exact ⟨job', outcome', delivers.notes.tells completed, same⟩
      · exact ⟨job, outcome, delivers.completes, rfl⟩

/-- In a calm run what is completed has been delivered, as soon as the task is over. -/
theorem tells_delivered_iff (reached : Reachable .calm w) (id : OperationId) :
    Tells w.history (.delivered id) ↔ id ∈ w.books.delivered := by
  refine ⟨reached.completed_of_delivered, ?_⟩
  refine Reachable.induct
    (P := fun w => id ∈ w.books.delivered → Tells w.history (.delivered id)) ?_ ?_ reached
  · intro workers files listed
    exact absurd listed List.not_mem_nil
  · intro w after reached ih step completed
    rw [mem_delivered_iff] at ih completed
    obtain ⟨job', outcome', completed, same⟩ := completed
    rcases step.notes_of_sound reached.sound with quiet | ⟨job, outcome, rest, delivers⟩
    · have before := quiet.tells completed (by simp [Event.delivery?])
      exact Notes.tells quiet (ih ⟨job', outcome', before, same⟩)
    · rcases delivers.tells completed rfl with before | own
      · exact delivers.notes.tells (ih ⟨job', outcome', before, same⟩)
      · rw [← same, own]
        exact delivers.returns rfl

end Steps

end PinnedFile
