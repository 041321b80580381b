/-
  PinnedFile.Proofs.Confinement

  Callbacks run on the context of their handle, one task after the other.

  A handle belongs to the context on which it was opened, and to no other ever after.  Its
  callbacks are reached in several ways: the handler of an operation and the listeners of a
  stream are called while an outcome is delivered, a close that waited is queued by the
  delivery of another operation, and a drain callback may be called where it is registered.
  The books hold each of these calls with the context that it was made on, and sound books
  have them all on the context of the handle.

  A task runs to its end before another one begins.  It leaves the context that it found,
  whether it has returned or a panic has ended it.
-/

import PinnedFile.Proofs.Histories

namespace PinnedFile

open Run

namespace Event

/-- The call of a callback: the handler of an operation, a listener of a stream, a drain
    callback or the sink. -/
def IsCallback : Event → Prop
  | .handled .. | .data .. | .ended .. | .failed .. | .unheard .. | .drained .. => True
  | _ => False

/-- The beginning of a task. -/
def BeginsTask : Event → Prop
  | .completed .. | .started _ | .later => True
  | _ => False

theorem IsTold.not_beginsTask {event : Event} (told : event.IsTold) : ¬ event.BeginsTask := by
  cases event with
  | completed | started | later => cases told
  | _ => exact id

end Event

/-- What is noted when a task begins. -/
def Task.beginning : Task → Event
  | .deliver job outcome => .completed job outcome
  | .client _ task => .started task.tag
  | .later _ => .later

variable {mode : Mode} {w after : World} {h : HandleId} {e : Entry}

namespace World

/-- The handle to which the callback belongs whose call an event is. -/
def callee? (w : World) : Event → Option HandleId
  | .handled id .. => (w.accepted.find? (·.id = id)).map Job.handle
  | .data h .. | .ended h .. | .failed h .. | .unheard h .. | .drained h .. => some h
  | _ => none

/-- An entry was made on the context to which a handle belongs. -/
def IsHomeOf (w : World) (h : HandleId) (e : Entry) : Prop :=
  ∃ s, w.handles[h]? = some s ∧ e.context = some s.owner

/-- The handles of a world are there later, each on the same context. -/
def KeepsOwners (w after : World) : Prop :=
  ∀ (h : HandleId) (s : Handle), w.handles[h]? = some s →
    ∃ s' : Handle, after.handles[h]? = some s' ∧ s'.owner = s.owner

/-- What a task adds to the history: its beginning, and what it does after that, all of it
    on the context of the task, and without another task beginning. -/
def RunsAlone (w : World) (task : Task) (after : World) : Prop :=
  ∃ body handles,
    after.history = body ++ ⟨some (w.taskContext task), task.beginning, handles⟩ :: w.history ∧
    ∀ e ∈ body, e.context = some (w.taskContext task) ∧ ¬ e.event.BeginsTask

/-- All that is added to the history is on one context, and no task begins in it but with its
    first entry. -/
def AddsOneSpan (w after : World) : Prop :=
  ∃ new context, after.history = new ++ w.history ∧ (∀ e ∈ new, e.context = context) ∧
    ∀ e ∈ new.dropLast, ¬ e.event.BeginsTask

/-! ## Owners -/

theorem keepsOwners_refl : w.KeepsOwners w := fun _ s known => ⟨s, known, rfl⟩

theorem KeepsOwners.trans {middle : World} (first : w.KeepsOwners middle)
    (second : middle.KeepsOwners after) : w.KeepsOwners after := by
  intro h s known
  obtain ⟨s', known', owner'⟩ := first h s known
  obtain ⟨s'', known'', owner''⟩ := second h s' known'
  exact ⟨s'', known'', owner''.trans owner'⟩

theorem keepsOwners_of_books (keeps : Books.KeepsHandles w.books.handles after.books.handles) :
    w.KeepsOwners after := by
  intro h s known
  obtain ⟨s', known', owner, -⟩ := keeps h s.core (books_handles known)
  obtain ⟨s'', known'', rfl⟩ := handles_of_books known'
  exact ⟨s'', known'', owner⟩

theorem IsHomeOf.kept (home : w.IsHomeOf h e) (keeps : w.KeepsOwners after) :
    after.IsHomeOf h e := by
  obtain ⟨s, known, here⟩ := home
  obtain ⟨s', known', owner⟩ := keeps h s known
  exact ⟨s', known', by rw [here, owner]⟩

/-- A handle that a command brings about belongs to the context that the command runs on. -/
theorem owner_of_opened (c : Command) (received : Bytes) {s : Handle}
    (unknown : w.handles[h]? = none)
    (known : (exec (c.run received) w).2.handles[h]? = some s) : w.context = some s.owner := by
  have entries := Moves.books (moves_command received c w)
  refine entries.owner_of_opened (s := s.core) ?_ (books_handles known)
  rcases there : w.books.handles[h]? with _ | s'
  · rfl
  · obtain ⟨s'', known', -⟩ := handles_of_books there
    rw [unknown] at known'
    cases known'

end World

theorem Step.keepsOwners (step : Step mode w after) (sound : Books.Sound mode w.books) :
    w.KeepsOwners after :=
  World.keepsOwners_of_books (Books.Turns.keepsHandles (step.turns_of_sound sound))

theorem Reachable.keepsOwners (reached : Reachable mode w) (steps : Steps mode w after) :
    w.KeepsOwners after := by
  induction steps with
  | refl => exact World.keepsOwners_refl
  | tail before last ih => exact ih.trans (last.keepsOwners (reached.steps before).sound)

/-! ## Callbacks -/

/-- A listener, a drain callback and the sink are called on the context of the handle. -/
theorem Reachable.isHomeOf_call (reached : Reachable mode w) (listed : e ∈ w.history)
    (called : e.event.caller? = some h) : w.IsHomeOf h e := by
  have caller : (h, e.context) ∈ w.books.callers :=
    List.mem_filterMap.mpr ⟨e, listed, by rw [called]; rfl⟩
  obtain ⟨s, known, here⟩ := reached.sound.attended _ caller
  obtain ⟨s', known', rfl⟩ := World.handles_of_books known
  exact ⟨s', known', here⟩

/-- The handler that a delivery calls is that of an accepted operation, and it is called on the
    context of its handle. -/
theorem Entry.OfDelivery.isHomeOf_handled {job : Job} {outcome : Outcome} {rest : Queue Task}
    {id : OperationId} {kind : Operation} {tag : String} {result : Except FileError Bytes}
    (belongs : e.OfDelivery (w.delivering job outcome rest) job outcome)
    (sound : Books.Sound mode w.books) (posted : .deliver job outcome ∈ w.tasks.items)
    (called : e.event = .handled id kind tag result) :
    ∃ a ∈ w.accepted, a.id = id ∧ w.IsHomeOf a.handle e := by
  obtain ⟨a, accepted, ticket, -⟩ :=
    sound.traced.underway job (Books.underway_of_posted posted)
  obtain ⟨s, known⟩ := known_of_sound sound job outcome posted
  have handle : a.handle = job.handle := congrArg Ticket.handle ticket
  cases belongs with
  | handled _ =>
    obtain ⟨number, -⟩ := Event.handled.inj called
    refine ⟨a, accepted, (congrArg Ticket.id ticket).trans number, s, by rw [handle, known], ?_⟩
    simp [World.delivering, World.entered, World.taskContext, known]
  | completed | delivered => cases called
  | told told =>
    have isTold := told.1
    rw [called] at isTold
    cases isTold

/-- The handler of an operation is called on the context of the operation's handle. -/
theorem Reachable.isHomeOf_handled (reached : Reachable mode w) (listed : e ∈ w.history)
    {id : OperationId} {kind : Operation} {tag : String} {result : Except FileError Bytes}
    (called : e.event = .handled id kind tag result) :
    ∃ a ∈ w.accepted, a.id = id ∧ w.IsHomeOf a.handle e := by
  refine Reachable.induct (P := fun w => e ∈ w.history →
    ∃ a ∈ w.accepted, a.id = id ∧ w.IsHomeOf a.handle e) ?_ ?_ reached listed
  · intro workers files listed
    exact absurd listed List.not_mem_nil
  · intro w after reached ih step listed
    have sound := reached.sound
    have keeps := step.keepsOwners sound
    -- what is so of an operation before the step is so after it
    have later {new : List Entry} (added : after.history = new ++ w.history)
        (before : ∃ a ∈ w.accepted, a.id = id ∧ w.IsHomeOf a.handle e) :
        ∃ a ∈ after.accepted, a.id = id ∧ after.IsHomeOf a.handle e := by
      obtain ⟨a, accepted, own, home⟩ := before
      refine ⟨a, ?_, own, home.kept keeps⟩
      rw [World.accepted, added, List.filterMap_append]
      exact List.mem_append_right _ accepted
    rcases step.notes_of_sound sound with ⟨new, added, quiet⟩ | ⟨job, outcome, rest, delivers⟩
    · rw [added] at listed
      rcases List.mem_append.mp listed with now | before
      · -- no handler is called but in a delivery
        have undelivering : e.event.delivery? = none := quiet e now
        rw [called] at undelivering
        cases undelivering
      · exact later added (ih before)
    · obtain ⟨new, added, noted⟩ := delivers.notes
      rw [added] at listed
      rcases List.mem_append.mp listed with now | before
      · have posted := Queue.mem_of_pop delivers.next
        exact later added ((noted e now).isHomeOf_handled sound posted called)
      · exact later added (ih before)

/-- Every callback is called on the context of the handle that it belongs to. -/
theorem Reachable.exists_callee (reached : Reachable mode w) (listed : e ∈ w.history)
    (callback : e.event.IsCallback) :
    ∃ h, w.callee? e.event = some h ∧ w.IsHomeOf h e := by
  cases called : e.event with
  | handled id kind tag result =>
    obtain ⟨a, accepted, own, home⟩ := reached.isHomeOf_handled listed called
    refine ⟨a.handle, ?_, home⟩
    -- no other operation has that number
    obtain ⟨loose, accounted, -⟩ := reached.sound.accounted
    obtain ⟨a', found⟩ : ∃ a', w.accepted.find? (·.id = id) = some a' :=
      Option.isSome_iff_exists.mp (List.find?_isSome.mpr ⟨a, accepted, decide_eq_true own⟩)
    have same : a'.id = id := by simpa using List.find?_some found
    obtain rfl := accounted.eq_of_id (List.mem_of_find?_eq_some found) accepted
      (same.trans own.symm)
    rw [World.callee?, found]
    rfl
  | data h | ended h | failed h | unheard h | drained h =>
    exact ⟨h, rfl, reached.isHomeOf_call listed (by rw [called]; rfl)⟩
  | _ =>
    rw [called] at callback
    cases callback

/-! ## Tasks -/

theorem Entry.OfDelivery.context {job : Job} {outcome : Outcome}
    (belongs : e.OfDelivery w job outcome) : e.context = w.context := by
  cases belongs with
  | completed | handled | delivered => rfl
  | told told => exact told.2

namespace World

/-- However a task has ended, the context is what it was before. -/
theorem context_runOn {α : Type} {context : ContextId} {holds : List HandleId} {code : Run α} :
    (w.runOn context holds code).2.context = w.context := congrArg Books.context books_runOn

end World

theorem Step.context (step : Step mode w after) : after.context = w.context := by
  cases step with
  | task runs =>
    obtain ⟨task, rest, -, rfl⟩ := World.exists_task_of_runTask runs
    exact World.context_runOn
  | command | body => exact World.context_runOn
  | outside c => exact Moves.context (moves_command [] c w)
  | take takes =>
    obtain ⟨job, rest, -, -, same⟩ := World.books_takeJob takes
    exact congrArg Books.context same
  | answer => exact congrArg Books.context World.books_answer
  | finish => exact congrArg Books.context World.books_finish
  | shutDown => exact congrArg Books.context World.books_shutDown
  | post | postLater | freshContext | takePanic => rfl

/-- Between two steps no context is current. -/
theorem Reachable.context (reached : Reachable mode w) : w.context = none :=
  reached.induct (P := fun w => w.context = none) (fun _ _ => rfl)
    fun _ _ _ before step => step.context.trans before

/-- After the beginning of a delivery no other task begins in it, as no operation is completed
    twice. -/
theorem not_beginsTask_of_delivery {before : World} {job : Job} {outcome : Outcome}
    {body older : List Entry} {first : Entry} (sound : Books.Sound mode w.books)
    (split : w.history = body ++ first :: older) (begins : first.event = .completed job outcome)
    (listed : e ∈ body) (belongs : e.OfDelivery before job outcome) : ¬ e.event.BeginsTask := by
  cases belongs with
  | handled | delivered => exact id
  | told told => exact told.1.not_beginsTask
  | completed handles =>
    obtain ⟨loose, accounted, -⟩ := sound.accounted
    have once : (w.completed.map fun c => c.1.id).Nodup := accounted.completed_nodup
    rw [World.completed, split, List.filterMap_append, List.filterMap_cons, begins] at once
    rw [List.map_append, List.nodup_append] at once
    have now : job.id ∈ (body.filterMap (·.event.completed?)).map fun c => c.1.id :=
      List.mem_map.mpr ⟨(job, outcome), List.mem_filterMap.mpr ⟨_, listed, rfl⟩, rfl⟩
    exact absurd rfl (once.2.2 _ now _ List.mem_cons_self)

/-- A task runs alone, from its beginning to its end. -/
theorem Reachable.runsAlone (reached : Reachable mode w) {task : Task} {rest : Queue Task}
    (next : w.tasks.pop = some (task, rest)) (runs : w.runTask = some after) :
    w.RunsAlone task after := by
  have soundAfter : Books.Sound .any after.books :=
    (reached.any.step (.task runs fun calm => by cases calm)).sound
  rw [World.runTask, next] at runs
  obtain rfl := Option.some.inj runs
  unfold World.RunsAlone
  rw [World.history_runOn]
  cases task with
  | deliver job outcome =>
    obtain ⟨s, known⟩ := known_of_sound reached.sound job outcome (Queue.mem_of_pop next)
    obtain ⟨body, added, noted⟩ :=
      notes_deliver outcome (World.onOwner_delivering outcome rest known)
    refine ⟨body, _, added, fun e listed => ⟨(noted e listed).context, ?_⟩⟩
    exact not_beginsTask_of_delivery soundAfter (World.history_runOn.trans added) rfl listed
      (noted e listed)
  | client context task =>
    obtain ⟨body, added, noted⟩ := Moves.notes (moves_runAll [] task.body
      (({ w with tasks := rest }.entered context []).record (.started task.tag)))
    refine ⟨body, _, added, fun e listed => ⟨(noted e listed).2, ?_⟩⟩
    exact (noted e listed).1.told.not_beginsTask
  | later context =>
    exact ⟨[], _, rfl, fun e listed => absurd listed List.not_mem_nil⟩

theorem addsOneSpan_of_notes {context : Option ContextId}
    (notes : Notes (·.IsClients context) w after) : w.AddsOneSpan after := by
  obtain ⟨new, added, noted⟩ := notes
  refine ⟨new, context, added, fun e listed => (noted e listed).2, fun e listed => ?_⟩
  exact (noted e (List.dropLast_subset new listed)).1.told.not_beginsTask

theorem addsOneSpan_runOn {α : Type} {context : ContextId} {holds : List HandleId}
    {code : Run α} (moves : Leads Moves code (w.entered context holds)) :
    w.AddsOneSpan (w.runOn context holds code).2 := by
  obtain ⟨new, added, noted⟩ := Moves.notes moves
  exact addsOneSpan_of_notes ⟨new, World.history_runOn.trans added, noted⟩

theorem addsOneSpan_of_entry (added : after.history = e :: w.history) : w.AddsOneSpan after :=
  ⟨[e], e.context, added, fun _ listed => congrArg Entry.context (List.mem_singleton.mp listed),
    fun _ listed => absurd listed List.not_mem_nil⟩

theorem World.RunsAlone.addsOneSpan {task : Task} (alone : w.RunsAlone task after) :
    w.AddsOneSpan after := by
  obtain ⟨body, handles, added, inside⟩ := alone
  refine ⟨body ++ [⟨some (w.taskContext task), task.beginning, handles⟩],
    some (w.taskContext task), by rw [added, List.append_assoc]; rfl, fun e listed => ?_,
    fun e listed => ?_⟩
  · rcases List.mem_append.mp listed with later | first
    · exact (inside e later).1
    · rw [List.mem_singleton.mp first]
  · rw [List.dropLast_concat] at listed
    exact (inside e listed).2

/-- Whatever a step is, it is on one context, and at most one task begins in it. -/
theorem Reachable.addsOneSpan (reached : Reachable mode w) (step : Step mode w after) :
    w.AddsOneSpan after := by
  have nothing {v : World} (same : v.history = w.history) : w.AddsOneSpan v :=
    ⟨[], none, same, fun _ listed => absurd listed List.not_mem_nil,
      fun _ listed => absurd listed List.not_mem_nil⟩
  cases step with
  | task runs =>
    obtain ⟨task, rest, next, -⟩ := World.exists_task_of_runTask runs
    exact (reached.runsAlone next runs).addsOneSpan
  | command context c => exact addsOneSpan_runOn (moves_command [] c _)
  | body context body => exact addsOneSpan_runOn (moves_runAll [] body _)
  | outside c => exact addsOneSpan_of_notes (Moves.notes (moves_command [] c w))
  | take takes =>
    obtain ⟨id, added⟩ := World.history_takeJob takes
    exact addsOneSpan_of_entry added
  | answer => exact addsOneSpan_of_entry World.history_answer
  | finish => exact nothing World.history_finish
  | shutDown origin => exact addsOneSpan_of_notes (Move.shutDown origin).notes
  | post | postLater | freshContext | takePanic => exact nothing rfl

/-! ## Confinement -/

/-- Every callback of a handle is called while the context of that handle is current.  This is
    the context on which the command ran that opened the handle, and it never changes.  A task
    runs from its beginning to its end without another one, on its own context throughout; and
    whatever a step does, and whether or not a panic ends it, no context is current before it
    and none after it. -/
theorem callbacks_are_confined (reached : Reachable mode w) :
    (∀ e ∈ w.history, e.event.IsCallback →
      ∃ h, w.callee? e.event = some h ∧ w.IsHomeOf h e) ∧
    (∀ (c : Command) received (v : World) (h : HandleId) s, v.handles[h]? = none →
      (exec (c.run received) v).2.handles[h]? = some s → v.context = some s.owner) ∧
    (∀ after, Steps mode w after → w.KeepsOwners after) ∧
    (∀ task rest after, w.tasks.pop = some (task, rest) → w.runTask = some after →
      w.RunsAlone task after) ∧
    w.context = none ∧
    ∀ after, Step mode w after → after.context = none ∧ w.AddsOneSpan after := by
  refine ⟨fun e => reached.exists_callee, ?_, fun after => reached.keepsOwners, ?_,
    reached.context, fun after step => ⟨(reached.step step).context, reached.addsOneSpan step⟩⟩
  · intro c received v h s unknown known
    exact World.owner_of_opened c received unknown known
  · intro task rest after next runs
    exact reached.runsAlone next runs

/-- A run that comes to two deliveries on two contexts, and the first handler panics. -/
def twoContextsRun : Option World :=
  (World.start 2 ⟨[], []⟩).follow
    [.body 0 [
      .openFile 0 { read := true, write := true } .log (.memory (.bytes []) none {}),
      .write 0 (.bytes [1, 2]) 0 ⟨"first", [.panic "no more"], []⟩],
    .body 1 [
      .openFile 1 { read := true, write := true } .log (.memory (.bytes []) none {}),
      .write 1 (.bytes [3, 4]) 0 ⟨"second", [], []⟩],
    .take, .take, .answer 0 (.moved 2 []), .finish 0, .answer 1 (.moved 2 []), .finish 1]

theorem handler_is_at_home_after_panic : ∃ w first second, twoContextsRun = some w ∧
    w.runTask = some first ∧ first.runTask = some second ∧
    first.panicNote = some "no more" ∧ first.context = none ∧
    (second.history.filterMap fun e => (second.callee? e.event).map fun h => (h, e.context)) =
      [(1, some ⟨1⟩), (0, some ⟨0⟩)] ∧
    ∀ e ∈ second.history, e.event.IsCallback →
      ∃ h, second.callee? e.event = some h ∧ second.IsHomeOf h e := by
  have runs : (twoContextsRun.bind fun w => w.runTask.bind fun first => first.runTask.map
      fun second => (first.panicNote, second.history.filterMap fun e =>
        (second.callee? e.event).map fun h => (h, e.context))) =
      some (some "no more", [(1, some ⟨1⟩), (0, some ⟨0⟩)]) := by decide +kernel
  obtain ⟨w, run, runs⟩ := Option.bind_eq_some_iff.mp runs
  obtain ⟨first, panics, runs⟩ := Option.bind_eq_some_iff.mp runs
  obtain ⟨second, handles, calls⟩ := Option.map_eq_some_iff.mp runs
  obtain ⟨panicked, called⟩ := Prod.mk.inj calls
  have reached : Reachable .any w := World.reachable_of_follow run
  have reachedFirst := reached.step (.task panics fun calm => by cases calm)
  have reachedSecond := reachedFirst.step (.task handles fun calm => by cases calm)
  obtain ⟨-, -, -, -, left, -⟩ := callbacks_are_confined reachedFirst
  obtain ⟨home, -⟩ := callbacks_are_confined reachedSecond
  exact ⟨w, first, second, run, panics, handles, panicked, left, called, home⟩

end PinnedFile
