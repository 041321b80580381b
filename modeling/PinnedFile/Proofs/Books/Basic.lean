/-
  PinnedFile.Proofs.Books.Basic

  The books of a world: what is needed to account for every accepted operation.

  They hold the handles without their streams, the queues and the workers, and what the
  history tells of operations: which were accepted, which native calls were made for them,
  which have come back, and which handlers were called.  Registrations, slots, listeners
  and references are not on the books, so most of what a client does leaves them as they
  are; the lemmas here say so for each primitive change.
-/

import PinnedFile.World.Schedule

namespace PinnedFile

/-! ## What a history tells of operations -/

/-- The part of an accepted operation that never changes. -/
structure Ticket where
  id : OperationId
  handle : HandleId
  completion : Completion

def Job.ticket (job : Job) : Ticket := ⟨job.id, job.handle, job.completion⟩

/-- A native call that was made for an operation, and what it returned. -/
structure Exchange where
  operation : OperationId
  handle : HandleId
  call : Call
  answer : Answer

/-- A call of the handler of an operation. -/
structure HandlerCall where
  operation : OperationId
  kind : Operation
  tag : String
  result : Except FileError Bytes

namespace Event

def accepted? : Event → Option Job
  | .accepted job => some job
  | _ => none

def exchange? : Event → Option Exchange
  | .native id h call a => some ⟨id, h, call, a⟩
  | _ => none

def completed? : Event → Option (Job × Outcome)
  | .completed job outcome => some (job, outcome)
  | _ => none

def handlerCall? : Event → Option HandlerCall
  | .handled id kind tag result => some ⟨id, kind, tag, result⟩
  | _ => none

/-- The handle on whose behalf code was running on a context: an operation was accepted or
    completed, or a listener, a drain callback or the sink was called. -/
def caller? : Event → Option HandleId
  | .accepted job | .completed job _ => some job.handle
  | .data h .. | .ended h .. | .failed h .. | .unheard h .. | .drained h .. => some h
  | _ => none

/-- What is noted when a listener or the sink is told of an outcome on a handle, or a drain
    callback is called. -/
def IsCallFor (h : HandleId) : Event → Prop
  | .data k .. | .ended k .. | .failed k .. | .unheard k .. | .drained k .. => k = h
  | _ => False

/-- Whether the books say nothing of an event. -/
def IsAside (e : Event) : Prop :=
  e.accepted? = none ∧ e.exchange? = none ∧ e.completed? = none ∧ e.handlerCall? = none
    ∧ e.caller? = none

end Event

namespace World

/-- The accepted operations, the latest first, as they were when accepted. -/
def accepted (w : World) : List Job := w.history.filterMap (·.event.accepted?)

/-- The native calls that have returned, the latest first. -/
def exchanges (w : World) : List Exchange := w.history.filterMap (·.event.exchange?)

/-- The operations whose outcome has reached the loop, the latest first. -/
def completed (w : World) : List (Job × Outcome) := w.history.filterMap (·.event.completed?)

/-- The calls of handlers of operations, the latest first. -/
def handlerCalls (w : World) : List HandlerCall := w.history.filterMap (·.event.handlerCall?)

/-- For each operation accepted or completed and each call of a listener, a drain callback or
    the sink, the handle and the context of that moment. -/
def callers (w : World) : List (HandleId × Option ContextId) :=
  w.history.filterMap fun e => e.event.caller?.map fun h => (h, e.context)

end World

/-! ## Books -/

/-- A handle without its streams. -/
def Handle.core (s : Handle) : Handle := { s with reader := none, writer := none }

/-- What is needed to account for every accepted operation. -/
@[ext]
structure Books where
  workers : Nat
  handles : List Handle
  jobs : Queue Job
  running : List Job
  tasks : Queue Task
  context : Option ContextId
  nextOperation : OperationId
  accepted : List Job
  exchanges : List Exchange
  completed : List (Job × Outcome)
  handlerCalls : List HandlerCall
  callers : List (HandleId × Option ContextId)

/-- The operation that a task delivers. -/
def Task.job? : Task → Option Job
  | .deliver job _ => some job
  | _ => none

namespace World

/-- The books of a world. -/
def books (w : World) : Books where
  workers := w.workers
  handles := w.handles.map Handle.core
  jobs := w.jobs
  running := w.running
  tasks := w.tasks
  context := w.context
  nextOperation := w.nextOperation
  accepted := w.accepted
  exchanges := w.exchanges
  completed := w.completed
  handlerCalls := w.handlerCalls
  callers := w.callers

theorem books_handles {w : World} {h : HandleId} {s : Handle}
    (known : w.handles[h]? = some s) : w.books.handles[h]? = some s.core := by
  simp [books, known]

theorem handles_of_books {w : World} {h : HandleId} {s : Handle}
    (known : w.books.handles[h]? = some s) : ∃ s', w.handles[h]? = some s' ∧ s'.core = s := by
  simpa [books, List.getElem?_map, Option.map_eq_some_iff] using known

/-! ## Changes that are not on the books -/

theorem books_record_aside {w : World} {e : Event} (aside : e.IsAside) :
    (w.record e).books = w.books := by
  obtain ⟨one, two, three, four, five⟩ := aside
  simp [books, record, accepted, exchanges, completed, handlerCalls, callers, one, two, three,
    four, five]

/-- Of a call no more is on the books than its handle and its context. -/
theorem books_record_call {w : World} {h : HandleId} {e : Event} (called : e.IsCallFor h) :
    (w.record e).books = { w.books with callers := (h, w.books.context) :: w.books.callers } := by
  cases e with
  | data | ended | failed | unheard | drained =>
    obtain rfl := called
    rfl
  | _ => cases called

theorem books_record_accepted {w : World} {job : Job} :
    (w.record (.accepted job)).books = { w.books with
      accepted := job :: w.books.accepted
      callers := (job.handle, w.books.context) :: w.books.callers } := rfl

theorem books_record_completed {w : World} {job : Job} {outcome : Outcome} :
    (w.record (.completed job outcome)).books = { w.books with
      completed := (job, outcome) :: w.books.completed
      callers := (job.handle, w.books.context) :: w.books.callers } := rfl

theorem books_record_handled {w : World} {id : OperationId} {kind : Operation} {tag : String}
    {result : Except FileError Bytes} : (w.record (.handled id kind tag result)).books =
      { w.books with handlerCalls := ⟨id, kind, tag, result⟩ :: w.books.handlerCalls } := rfl

theorem map_modify {α β : Type} {f : α → α} {g : α → β} {f' : β → β}
    (same : ∀ a, g (f a) = f' (g a)) (l : List α) (i : Nat) :
    (l.modify i f).map g = (l.map g).modify i f' := by
  induction l generalizing i with
  | nil => simp
  | cons a rest ih => cases i <;> simp [same, ih]

/-- A handle can be changed on the books if the change does not depend on its streams. -/
theorem books_modifyHandle {w : World} {h : HandleId} {f : Handle → Handle}
    (f' : Handle → Handle) (same : ∀ s, (f s).core = f' s.core) :
    (w.modifyHandle h f).books = { w.books with handles := w.books.handles.modify h f' } := by
  simp only [books, modifyHandle, map_modify same]
  rfl

theorem books_modifyHandle_aside {w : World} {h : HandleId} {f : Handle → Handle}
    (same : ∀ s, (f s).core = s.core) : (w.modifyHandle h f).books = w.books := by
  rw [books_modifyHandle id same, List.modify_id]

@[simp] theorem books_modifyReader {w : World} {h : HandleId} {f : Reader → Reader} :
    (w.modifyReader h f).books = w.books := books_modifyHandle_aside fun _ => rfl

@[simp] theorem books_modifyWriter {w : World} {h : HandleId} {f : Writer → Writer} :
    (w.modifyWriter h f).books = w.books := books_modifyHandle_aside fun _ => rfl

@[simp] theorem books_sweepOnce {w : World} : w.sweepOnce.books = w.books := by
  have kept : w.sweepOnce.handles.map Handle.core = w.handles.map Handle.core := by
    apply List.ext_getElem?
    intro h
    simp only [sweepOnce, List.getElem?_map, List.getElem?_mapIdx, Option.map_map]
    congr 1
    funext s
    simp only [Function.comp]
    split <;> rfl
  simp only [books, kept]
  rfl

@[simp] theorem books_sweep {w : World} : w.sweep.books = w.books := by
  have rounds (n : Nat) : (Nat.repeat sweepOnce n w).books = w.books := by
    induction n with
    | zero => rfl
    | succ n ih =>
      rw [Nat.repeat, books_sweepOnce]
      exact ih
  exact rounds _

@[simp] theorem books_setSlot {w : World} {f : Slot} {entry : SlotEntry} :
    (w.setSlot f entry).books = w.books := by
  rw [setSlot, books_sweep]
  rfl

@[simp] theorem books_setSlotHandle {w : World} {f : Slot} {h : Option HandleId} :
    (w.setSlotHandle f h).books = w.books := books_setSlot

end World

end PinnedFile
