/-
  PinnedFile.Proofs.Handlers

  The handler of an accepted operation is called once.

  It is called when the outcome of the operation's own native work is delivered, never while
  the client's code makes the request, and on the context of the handle.  In a calm run that
  has come to rest every handler has been called: nothing is lost, and no close waits any
  more.  A request that is refused leaves nothing behind, so its handler is never called.
-/

import PinnedFile.Proofs.Books.Sound

namespace PinnedFile

open Run

namespace Books

variable {mode : Mode} {b : Books} {loose : List Job} {h : HandleId} {s : Handle} {job : Job}

/-! ## Calls of handlers -/

/-- The calls of an operation's handler. -/
def callsOf (b : Books) (id : OperationId) : List HandlerCall :=
  b.handlerCalls.filter (·.operation = id)

theorem operation_of_handlerCall {outcome : Outcome} {call : HandlerCall}
    (called : job.handlerCall? outcome = some call) : call.operation = job.id := by
  obtain ⟨handler, -, rfl⟩ := Option.map_eq_some_iff.mp called
  rfl

/-- Each call of a handler is that of a completed operation of its own. -/
theorem handlerCalls_sublist {completed : List (Job × Outcome)} :
    ((completed.filterMap fun c => c.1.handlerCall? c.2).map HandlerCall.operation).Sublist
      (completed.map fun c => c.1.id) := by
  induction completed with
  | nil => exact .slnil
  | cons c rest ih =>
    rw [List.filterMap_cons, List.map_cons]
    rcases called : c.1.handlerCall? c.2 with _ | call
    · exact ih.cons _
    · rw [← operation_of_handlerCall called]
      exact ih.cons_cons _

/-- No handler is called twice. -/
theorem Sound.callsOf_le_one (sound : Sound mode b) (id : OperationId) :
    (b.callsOf id).length ≤ 1 := by
  obtain ⟨loose, accounted, -⟩ := sound.accounted
  have apart : (b.handlerCalls.map HandlerCall.operation).Nodup := by
    rw [sound.called]
    exact accounted.completed_nodup.sublist handlerCalls_sublist
  apply length_le_one (apart.sublist (List.filter_sublist.map _))
  intro call listed
  exact of_decide_eq_true (List.mem_filter.mp listed).2

/-- What a call of a handler tells is the outcome of an accepted operation's own work. -/
theorem Sound.origin_of_call (sound : Sound mode b) {call : HandlerCall}
    (listed : call ∈ b.handlerCalls) :
    ∃ a ∈ b.accepted, ∃ u outcome, a.transfer.Made (b.exchangesOf a.id) (some u) ∧
      u.outcome? = some outcome ∧ a.handlerCall? outcome = some call := by
  rw [sound.called, List.mem_filterMap] at listed
  obtain ⟨c, there, called⟩ := listed
  obtain ⟨⟨a, accepted, ticket, made⟩, ended⟩ := sound.traced.completed c there
  refine ⟨a, accepted, c.1.transfer, c.2, made, ended, ?_⟩
  rcases a with ⟨id, k, t, completion⟩
  obtain ⟨rfl, -, rfl⟩ := Ticket.mk.inj ticket
  exact called

/-! ## At rest -/

/-- Nothing waits for a worker or the loop, and no worker has a job. -/
def AtRest (b : Books) : Prop := b.jobs.items = [] ∧ b.running = [] ∧ b.tasks.items = []

theorem owed_eq_zero_of_load {load : Completion → Nat} {tickets : Multiset Ticket}
    (light : ∀ t ∈ tickets, load t.completion = 0) : owed load h tickets = 0 := by
  apply Multiset.sum_eq_zero
  intro n listed
  obtain ⟨t, there, rfl⟩ := Multiset.mem_map.mp listed
  exact light t (Multiset.mem_filter.mp there).1

theorem underway_of_atRest (rest : b.AtRest) :
    b.underway = b.handles.filterMap Handle.pendingClose := by
  obtain ⟨jobs, running, tasks⟩ := rest
  rw [underway, jobs, running, tasks]
  rfl

/-- At rest every handle is quiet, if nothing was lost. -/
theorem Sound.quiet_of_rest {mode : Mode} (sound : Sound mode b) (accounted : b.Accounted [])
    (rest : b.AtRest) (known : b.handles[h]? = some s) : s.isQuiet = true := by
  -- all that is on its way are closes that wait, and they count for nothing
  have light (counter : Counter) (none : ∀ handler, counter.load (.close handler) = 0) :
      ∀ t ∈ bag (b.underway ++ []), counter.load t.completion = 0 := by
    intro t listed
    obtain ⟨job, there, rfl⟩ := List.mem_map.mp (Multiset.mem_coe.mp listed)
    rw [List.append_nil, underway_of_atRest rest] at there
    obtain ⟨s', listed', waits⟩ := List.mem_filterMap.mp there
    obtain ⟨k, known'⟩ := List.mem_iff_getElem?.mp listed'
    have closes := (sound.closing.waiting k s' job known' waits).closes
    obtain ⟨handler, completion⟩ := Completion.eq_close closes
    rw [show job.ticket.completion = job.completion from rfl, completion]
    exact none handler
  have bytes := (sound.counted .bytes).of_eq accounted known
  have operations := (sound.counted .operations).of_eq accounted known
  rw [owed_eq_zero_of_load (light .bytes fun _ => rfl)] at bytes
  rw [owed_eq_zero_of_load (light .operations fun _ => rfl)] at operations
  by_contra busy
  rcases Handle.isQuiet_eq_false_iff.mp (eq_false_of_ne_true busy) with some | some
  · exact some bytes
  · exact some operations

/-- In a calm run at rest nothing is on its way, not even a close that waits. -/
theorem Sound.underway_of_rest (sound : Sound .calm b) (alive : b.IsAlive) (rest : b.AtRest) :
    b.underway = [] := by
  obtain ⟨loose, accounted, kept⟩ := sound.accounted
  obtain rfl := kept rfl alive
  -- a close waits on a busy handle only
  rw [underway_of_atRest rest, List.filterMap_eq_nil_iff]
  intro s listed
  obtain ⟨h, known⟩ := List.mem_iff_getElem?.mp listed
  by_contra waits
  have busy := sound.prompt rfl h s known (fun none => by cases none)
    (Option.isSome_iff_ne_none.mpr waits)
  rw [sound.quiet_of_rest accounted rest known] at busy
  cases busy

/-- In a calm run at rest every accepted operation is completed. -/
theorem Sound.completed_of_rest (sound : Sound .calm b) (alive : b.IsAlive) (rest : b.AtRest)
    {a : Job} (accepted : a ∈ b.accepted) : ∃ c ∈ b.completed, c.1.ticket = a.ticket := by
  obtain ⟨loose, accounted, kept⟩ := sound.accounted
  obtain rfl := kept rfl alive
  -- nothing is on its way and nothing is lost, so what was accepted is completed
  have there := ticket_mem_bag accepted
  rw [accounted.balanced, sound.underway_of_rest alive rest, bag_nil, zero_add, add_zero] at there
  obtain ⟨job, listed, ticket⟩ := List.mem_map.mp (Multiset.mem_coe.mp there)
  obtain ⟨c, completed, rfl⟩ := List.mem_map.mp listed
  exact ⟨c, completed, ticket⟩

/-- Once an operation is completed its handler has been called. -/
theorem Sound.called_of_completed {mode : Mode} (sound : Sound mode b) {a : Job}
    {c : Job × Outcome} (completed : c ∈ b.completed) (ticket : c.1.ticket = a.ticket)
    (handled : a.completion.handler?.isSome = true) : b.callsOf a.id ≠ [] := by
  obtain ⟨handler, found⟩ := Option.isSome_iff_exists.mp handled
  obtain ⟨call, called⟩ : ∃ call, c.1.handlerCall? c.2 = some call := by
    rw [Job.handlerCall?, show c.1.completion = a.completion from congrArg Ticket.completion ticket,
      found]
    exact ⟨_, rfl⟩
  have number : call.operation = a.id :=
    (operation_of_handlerCall called).trans (congrArg Ticket.id ticket)
  have told : call ∈ b.handlerCalls := by
    rw [sound.called]
    exact List.mem_filterMap.mpr ⟨c, completed, called⟩
  exact List.ne_nil_of_mem (List.mem_filter.mpr ⟨told, decide_eq_true number⟩)

/-- In a calm run at rest the handler of every accepted operation has been called. -/
theorem Sound.called_of_rest (sound : Sound .calm b) (alive : b.IsAlive) (rest : b.AtRest)
    {a : Job} (accepted : a ∈ b.accepted) (handled : a.completion.handler?.isSome = true) :
    b.callsOf a.id ≠ [] := by
  obtain ⟨c, completed, ticket⟩ := sound.completed_of_rest alive rest accepted
  exact sound.called_of_completed completed ticket handled

end Books

/-! ## Requests -/

namespace Command

/-- The calls that have a handler called later: write, read, flush and close. -/
def StartsOperation : Command → Prop
  | .write .. | .read .. | .flush .. | .close .. => True
  | _ => False

end Command

variable {w after : World}

/-- The code of a client calls no handler of an operation, whatever it does. -/
theorem handlerCalls_of_moves {α : Type} {code : Run α} (moves : Leads Moves code w) :
    (exec code w).2.handlerCalls = w.handlerCalls :=
  (Moves.books moves).sameWork.handlerCalls

theorem refused_ask {f : World → Except FileError World} {e : FileError}
    (refused : exec (ask f) w = (.ok (.result (.error e)), after)) : after = w := by
  rw [ask, exec_map] at refused
  rcases decided : f w with reason | accepted
  · rw [exec_request_error decided] at refused
    exact (Prod.mk.inj refused).2.symm
  · rw [exec_request_ok decided] at refused
    cases (Prod.mk.inj refused).1

theorem refused_withHandle {f : Slot} {next : HandleId → Run Reply} {e : FileError}
    (unchanged : ∀ h, exec (next h) w = (.ok (.result (.error e)), after) → after = w)
    (refused : exec (withHandle f next) w = (.ok (.result (.error e)), after)) : after = w := by
  rw [withHandle, exec_get_bind] at refused
  split at refused
  · cases (Prod.mk.inj refused).1
  next h _ => exact unchanged h refused

/-- A refused operation leaves everything as it is. -/
theorem refused_operation {c : Command} {received : Bytes} {e : FileError}
    (operation : c.StartsOperation)
    (refused : exec (c.run received) w = (.ok (.result (.error e)), after)) : after = w := by
  cases c with
  | write | read | flush | close => exact refused_withHandle (fun _ => refused_ask) refused
  | _ => cases operation

namespace World

/-- The calls of the handler of an operation. -/
def callsOf (w : World) (id : OperationId) : List HandlerCall := w.books.callsOf id

/-- Neither the loop nor the workers were shut down. -/
def IsAlive (w : World) : Prop := w.books.IsAlive

/-- Nothing waits for a worker or the loop, and no worker has a job. -/
def AtRest (w : World) : Prop := w.books.AtRest

/-- Whether all is up and at rest. -/
def restsUp (w : World) : Bool :=
  w.jobs.isOpen && w.tasks.isOpen && w.jobs.items.isEmpty && w.running.isEmpty
    && w.tasks.items.isEmpty

theorem rest_of_restsUp {w : World} (rests : w.restsUp = true) : w.IsAlive ∧ w.AtRest := by
  simp only [restsUp, Bool.and_eq_true, List.isEmpty_iff] at rests
  obtain ⟨⟨⟨alive, jobs⟩, running⟩, tasks⟩ := rests
  exact ⟨alive, jobs, running, tasks⟩

/-- A call of a handler tells what the native work of an accepted operation, and of no other,
    has come to. -/
def IsOwnOutcome (w : World) (call : HandlerCall) : Prop :=
  ∃ a ∈ w.accepted, ∃ u outcome,
    a.transfer.Made (w.books.exchangesOf a.id) (some u) ∧ u.outcome? = some outcome ∧
    a.handlerCall? outcome = some call

end World

/-- A run in which a read overtakes a write, and a close waits for both and for a flush. -/
def restingRun : Option World :=
  (World.start 2 ⟨[], []⟩).follow
    [.body 0 [
      .openFile 0 { read := true, write := true } .log (.memory (.bytes [1, 2, 3]) none {}),
      .write 0 (.bytes [7, 8, 9]) 0 ⟨"written", [], []⟩,
      .read 0 (.bytes []) 0 0 2 ⟨"read", [], []⟩,
      .flush 0 (some ⟨"flushed", [], []⟩),
      .close 0 (some ⟨"closed", [], []⟩)],
    .take, .take, .answer 1 (.moved 2 [1, 2]), .finish 1,
    .answer 0 (.moved 2 []), .answer 0 (.moved 1 []), .finish 0,
    .take, .answer 2 (.moved 0 []), .finish 2,
    .task, .task, .task, .take, .answer 3 (.moved 0 []), .finish 3, .task]

end PinnedFile
