/-
  PinnedFile.Proofs.Panics

  What panics can do to operations, and to a close that waits for them.

  A panic of native work takes its operation along.  If there is none, everything accepted
  stays on its way until it is completed, whatever callbacks do.  A panic of a callback ends
  its delivery, and with it what comes last there, the start of a close that waited.  Only the
  last delivery of a handle can start a close, so a panic in any other is made up for.
-/

import PinnedFile.Proofs.Handlers
import PinnedFile.Proofs.Histories
import PinnedFile.Proofs.NativeClose

namespace PinnedFile

open Run

namespace Books

variable {mode : Mode} {b after : Books} {h : HandleId} {job : Job}

/-! ## Native work that does not panic -/

/-- The native work of no operation has panicked. -/
def NativesReturn (b : Books) : Prop :=
  ∀ a ∈ b.accepted, (a.transfer.afterCalls (b.exchangesOf a.id)).isSome = true

/-- The native work of an operation has panicked. -/
def HasPanicked (b : Books) (a : Job) : Prop :=
  a.transfer.afterCalls (b.exchangesOf a.id) = none

theorem Move.accepted_subset (entry : Move b after) : b.accepted ⊆ after.accepted := by
  cases entry with
  | accept | close | closeLater => exact List.subset_cons_self _ _
  | call | «open» | post | shutDown => exact List.Subset.refl _

theorem Moves.accepted_subset (entries : Moves b after) : b.accepted ⊆ after.accepted := by
  induction entries with
  | refl => exact List.Subset.refl _
  | tail _ last ih => exact List.Subset.trans ih last.accepted_subset

theorem Turn.accepted_subset (turn : Turn mode b after) : b.accepted ⊆ after.accepted := by
  cases turn with
  | move entry => exact entry.accepted_subset
  | @deliver middle job outcome rest s next known entries =>
    rw [accepted_closeIfQuiet]
    exact Moves.accepted_subset (b := b.opening rest s.owner job outcome) entries
  | @breakOff _ job outcome rest s next known entries calm =>
    exact Moves.accepted_subset (b := b.opening rest s.owner job outcome) entries
  | switch | begin | take | answer | finish => exact List.Subset.refl _

/-- What was exchanged for an operation stays so. -/
theorem Turn.exists_exchangesOf (turn : Turn mode b after) (sound : Sound mode b)
    (id : OperationId) : ∃ new, after.exchangesOf id = new ++ b.exchangesOf id := by
  obtain ⟨loose, accounted, -⟩ := sound.accounted
  rcases turn.natives accounted with ⟨same, -⟩ | ⟨_, _, _, -, -, same, -⟩
  · exact ⟨[], by rw [exchangesOf, same]; rfl⟩
  · rw [exchangesOf, same]
    exact ⟨_, List.filter_append [_] _⟩

/-- A panic stays one. -/
theorem Turn.hasPanicked {a : Job} (turn : Turn mode b after) (sound : Sound mode b)
    (panicked : b.HasPanicked a) : after.HasPanicked a := by
  obtain ⟨new, added⟩ := turn.exists_exchangesOf sound a.id
  rw [HasPanicked, added]
  by_contra goes_on
  have before := Transfer.isSome_afterCalls_of_append (Option.isSome_iff_ne_none.mpr goes_on)
  rw [panicked] at before
  cases before

/-- The answer of a call that takes its job along is a panic of the native work of an accepted
    operation. -/
theorem Sound.hasPanicked_answer {call : Call} {a : Answer} (sound : Sound mode b)
    (running : job ∈ b.running) (panics : job.transfer.feed a = none) :
    ∃ first ∈ b.accepted, first.ticket = job.ticket ∧
      (b.answer job call a).HasPanicked first := by
  obtain ⟨first, accepted, ticket, made⟩ := sound.traced.underway job (underway_of_running running)
  have number : first.id = job.id := congrArg Ticket.id ticket
  have called : (b.answer job call a).exchangesOf first.id =
      ⟨job.id, job.handle, call, a⟩ :: b.exchangesOf first.id := by
    simp [exchangesOf, Books.answer, number]
  refine ⟨first, accepted, ticket, ?_⟩
  rw [HasPanicked, called, Transfer.afterCalls, made.eq_afterCalls, Option.bind_some, panics]

/-- Everything accepted is on its way or completed, but for what was lost with a panic of its
    native work. -/
def LosesPanickedOnly (b : Books) : Prop :=
  ∃ loose, b.Accounted loose ∧
    ∀ job ∈ loose, ∃ a ∈ b.accepted, a.ticket = job.ticket ∧ b.HasPanicked a

/-- An operation whose native work has not panicked is on its way or completed. -/
theorem LosesPanickedOnly.underway_or_completed {a : Job} (loses : b.LosesPanickedOnly)
    (accepted : a ∈ b.accepted) (returns : ¬ b.HasPanicked a) :
    (∃ job ∈ b.underway, job.ticket = a.ticket) ∨ ∃ c ∈ b.completed, c.1.ticket = a.ticket := by
  obtain ⟨loose, accounted, lost⟩ := loses
  have there := ticket_mem_bag accepted
  rw [accounted.balanced, Multiset.mem_add, Multiset.mem_add] at there
  rcases there with (underway | completed) | loosened
  · obtain ⟨job, listed, same⟩ := List.mem_map.mp (Multiset.mem_coe.mp underway)
    exact .inl ⟨job, listed, same⟩
  · obtain ⟨job, listed, same⟩ := List.mem_map.mp (Multiset.mem_coe.mp completed)
    obtain ⟨c, told, rfl⟩ := List.mem_map.mp listed
    exact .inr ⟨c, told, same⟩
  · obtain ⟨job, listed, same⟩ := List.mem_map.mp (Multiset.mem_coe.mp loosened)
    obtain ⟨a', accepted', same', panicked⟩ := lost job listed
    obtain rfl := accounted.eq_of_id accepted' accepted (congrArg Ticket.id (same'.trans same))
    exact absurd panicked returns

/-- As long as all is up, nothing is lost but with a panic of native work. -/
theorem Turn.losesPanickedOnly (turn : Turn mode b after) (sound : Sound mode b)
    (kept : b.IsAlive → b.LosesPanickedOnly) (alive : after.IsAlive) :
    after.LosesPanickedOnly := by
  have still {job : Job} (before : ∃ a ∈ b.accepted, a.ticket = job.ticket ∧ b.HasPanicked a) :
      ∃ a ∈ after.accepted, a.ticket = job.ticket ∧ after.HasPanicked a := by
    obtain ⟨a, accepted, ticket, panicked⟩ := before
    exact ⟨a, turn.accepted_subset accepted, ticket, turn.hasPanicked sound panicked⟩
  have before : b.IsAlive := by
    obtain ⟨loose, accounted, -⟩ := sound.accounted
    rcases turn.accounts sound.coherent accounted with
      ⟨_, -, same⟩ | ⟨-, job, call, a, -, -, -, rfl, -⟩
    · exact (same alive).1
    · exact alive
  obtain ⟨loose, accounted, lost⟩ := kept before
  rcases turn.accounts sound.coherent accounted with
    ⟨loose', accounted', same⟩ | ⟨-, job, call, a, running, -, panics, rfl, accounted'⟩
  · obtain rfl := (same alive).2
    exact ⟨loose', accounted', fun job listed => still (lost job listed)⟩
  · refine ⟨job :: loose, accounted', fun other listed => ?_⟩
    rcases List.mem_cons.mp listed with rfl | listed
    · exact sound.hasPanicked_answer running panics
    · exact still (lost other listed)

theorem Turns.losesPanickedOnly (turns : Turns mode b after) (sound : Sound mode b)
    (kept : b.IsAlive → b.LosesPanickedOnly) : after.IsAlive → after.LosesPanickedOnly := by
  induction turns with
  | refl => exact kept
  | tail before last ih => exact last.losesPanickedOnly (Turns.sound before sound) ih

/-! ## Closes that wait on a quiet handle -/

/-- A close waits on a quiet handle only after a delivery on that handle. -/
theorem Turns.promptAt (turns : Turns mode b after) (coherent : b.Coherent)
    (prompt : b.PromptAt h) : ∃ new, after.completed = new ++ b.completed ∧
      (after.PromptAt h ∨ ∃ c ∈ new, c.1.handle = h) := by
  suffices kept : after.Coherent ∧ ∃ new, after.completed = new ++ b.completed ∧
      (after.PromptAt h ∨ ∃ c ∈ new, c.1.handle = h) from kept.2
  induction turns with
  | refl => exact ⟨coherent, [], rfl, .inl prompt⟩
  | @tail middle after _ last ih =>
    obtain ⟨coherent', new, added, state⟩ := ih
    obtain ⟨new', added'⟩ : ∃ new', after.completed = new' ++ middle.completed := by
      rcases last.completes with ⟨same, -⟩ | ⟨job, outcome, -, same, -⟩
      · exact ⟨[], same⟩
      · exact ⟨[(job, outcome)], same⟩
    refine ⟨last.coherent coherent', new' ++ new, by rw [added', added, List.append_assoc], ?_⟩
    rcases state with promptNow | ⟨c, listed, own⟩
    · rcases last.promptAt coherent' promptNow with promptStill | ⟨job, outcome, own, same, -⟩
      · exact .inl promptStill
      · -- the delivery that was broken off is one of those that were added
        right
        refine ⟨(job, outcome), List.mem_append_left _ ?_, own⟩
        rw [same, ← List.singleton_append] at added'
        rw [← List.append_cancel_right added']
        exact List.mem_singleton_self _
    · exact .inr ⟨c, List.mem_append_right _ listed, own⟩

end Books

namespace World

variable {w : World} {h : HandleId}

/-- The native work of no operation has panicked. -/
def NativesReturn (w : World) : Prop := w.books.NativesReturn

instance : Decidable w.NativesReturn :=
  inferInstanceAs (Decidable (∀ a ∈ w.books.accepted,
    (a.transfer.afterCalls (w.books.exchangesOf a.id)).isSome = true))

/-- The operation of a handle that reached the loop last. -/
def lastCompleted? (w : World) (h : HandleId) : Option Job :=
  (w.completed.find? (·.1.handle = h)).map Prod.fst

/-- The last delivery on a handle was broken off by a panic. -/
def BrokeOff (w : World) (h : HandleId) : Prop :=
  ∃ job, w.lastCompleted? h = some job ∧ ¬ Tells w.history (.delivered job.id)

end World

variable {mode : Mode} {w after : World} {h : HandleId} {job : Job} {outcome : Outcome}
  {rest : Queue Task}

/-- In every run, as long as all is up, nothing is lost but with a panic of native work. -/
theorem Reachable.losesPanickedOnly (reached : Reachable mode w) (alive : w.IsAlive) :
    w.books.LosesPanickedOnly := by
  suffices kept : w.books.IsAlive → w.books.LosesPanickedOnly from kept alive
  refine Reachable.induct (P := fun w => w.books.IsAlive → w.books.LosesPanickedOnly)
    (fun _ _ _ => ⟨[], ⟨rfl, rfl⟩, fun _ listed => absurd listed List.not_mem_nil⟩) ?_ reached
  intro w after reached kept step
  exact (step.turns_of_sound reached.sound).losesPanickedOnly reached.sound kept

/-- If no native work has panicked, nothing is lost. -/
theorem Reachable.accounted_of_returns (reached : Reachable mode w) (alive : w.IsAlive)
    (returns : w.NativesReturn) : w.books.Accounted [] := by
  obtain ⟨loose, accounted, lost⟩ := reached.losesPanickedOnly alive
  rcases loose with _ | ⟨job, rest⟩
  · exact accounted
  · obtain ⟨a, accepted, -, panicked⟩ := lost job List.mem_cons_self
    have goes_on := returns a accepted
    rw [panicked] at goes_on
    cases goes_on

/-! ## Deliveries that are broken off -/

/-- What a delivery leaves behind on its handle: no close waits on it while it is quiet, or a
    callback has panicked, and then the delivery has not come to its end. -/
theorem promptAt_deliver (here : w.OnOwner job.handle) (coherent : w.books.Coherent) :
    (exec (deliver job outcome) w).2.books.PromptAt job.handle ∨
      Notes (fun e => ∀ id, e.event ≠ .delivered id) w (exec (deliver job outcome) w).2 := by
  have opened : (w.books.complete job outcome).Coherent :=
    Books.forall_modify coherent fun _ _ one => one.releasing
  obtain ⟨b, entries, ends⟩ := @World.enters_deliver _ _ outcome here
  have kept := entries.coherent opened
  rcases ends with ends | ⟨ends, ⟨s, known, isOpen⟩ | ⟨message, panicked⟩⟩
  · rw [ends]
    exact .inl (Books.promptAt_closeIfQuiet kept)
  · rw [ends]
    refine .inl fun s' known' => ?_
    obtain rfl := Option.some.inj (known.symm.trans known')
    exact (kept s (List.mem_of_getElem? known)).prompt_of_open isOpen
  · -- the panic came while the client was told
    right
    have completed : Notes (fun e => ∀ id, e.event ≠ .delivered id) w
        (w.completing job outcome) := notes_record (w := w.modifyHandle job.handle
          (·.releasing job.completion)) fun _ same => by cases same
    have told := completed.trans (notes_tell_undelivered job outcome
      (World.onOwner_completing job outcome here))
    rw [exec_announce] at panicked
    rcases ends : exec (tell job outcome) (w.completing job outcome) with ⟨message' | _, second⟩
    · rw [exec_bind_error ends] at panicked
      rw [ends] at told
      exact (Prod.mk.inj panicked).2 ▸ told
    · rw [exec_bind_ok ends, exec_note] at panicked
      cases (Prod.mk.inj panicked).1

/-- A delivery completes one operation. -/
theorem RunsDelivery.completed (runs : RunsDelivery mode w after job outcome rest) :
    after.completed = (job, outcome) :: w.completed := by
  obtain ⟨b, entries, ends⟩ := @World.enters_deliver _ _ outcome runs.here
  have same : b.completed = (job, outcome) :: w.completed := entries.sameWork.completed
  have entered : (exec (deliver job outcome) (w.delivering job outcome rest)).2.books.completed =
      b.completed := by
    rcases ends with ends | ⟨ends, -⟩
    · rw [ends]
      exact (Books.sameWork_closeIfQuiet b job.handle).completed
    · rw [ends]
  rw [World.completed, runs.history]
  exact entered.trans same

/-- Nothing is completed while nothing is delivered. -/
theorem Routine.completed (routine : Routine w after) :
    after.completed = w.completed := by
  obtain ⟨new, added, all⟩ := routine
  have nothing : new.filterMap (·.event.completed?) = [] := by
    rw [List.filterMap_eq_nil_iff]
    intro e listed
    have none := (all e listed).delivery?
    rcases event : e.event
    case completed => rw [event] at none; cases none
    all_goals rfl
  rw [World.completed, added, List.filterMap_append, nothing, List.nil_append, World.completed]

theorem World.lastCompleted?_of_completed
    (completed : after.completed = (job, outcome) :: w.completed) :
    after.lastCompleted? h = if job.handle = h then some job else w.lastCompleted? h := by
  rw [World.lastCompleted?, completed, List.find?_cons]
  by_cases own : job.handle = h
  · simp [own]
  · simp [own, World.lastCompleted?]

/-- What is delivered was not delivered before. -/
theorem RunsDelivery.undelivered (runs : RunsDelivery mode w after job outcome rest)
    (sound : Books.Sound mode w.books) : job.id ∉ w.books.delivered := by
  obtain ⟨loose, accounted, -⟩ := sound.accounted
  have there : job ∈ w.books.underway := Books.underway_of_posted (Queue.mem_of_pop runs.next)
  exact accounted.not_completed (ticket_mem_bag (List.mem_append_left _ there))

/-- Where nothing is delivered, nothing is broken off. -/
theorem Routine.promptAt_or_brokeOff (routine : Routine w after)
    (turns : Books.Turns mode w.books after.books) (coherent : w.books.Coherent)
    (before : w.books.PromptAt h ∨ w.BrokeOff h) : after.books.PromptAt h ∨ after.BrokeOff h := by
  have same := routine.completed
  rcases before with prompt | ⟨job, last, broken⟩
  · obtain ⟨new, added, state⟩ := turns.promptAt coherent prompt
    have none : new = [] := List.append_left_eq_self.mp (added.symm.trans same)
    rcases state with still | ⟨c, listed, -⟩
    · exact .inl still
    · rw [none] at listed
      cases listed
  · right
    have still : after.lastCompleted? h = some job := by rwa [World.lastCompleted?, same]
    refine ⟨job, still, fun told => ?_⟩
    exact broken (routine.undelivering.tells told (by simp [Event.delivery?]))

/-- A delivery looks after its own handle, unless it is broken off itself. -/
theorem RunsDelivery.promptAt_or_brokeOff_self (runs : RunsDelivery mode w after job outcome rest)
    (reached : Reachable mode w) :
    after.books.PromptAt job.handle ∨ after.BrokeOff job.handle := by
  have left : (exec (deliver job outcome) (w.delivering job outcome rest)).2.books.PromptAt
      job.handle ∨ Notes (fun e => ∀ id, e.event ≠ .delivered id)
        (w.delivering job outcome rest)
        (exec (deliver job outcome) (w.delivering job outcome rest)).2 :=
    promptAt_deliver runs.here reached.sound.coherent
  rcases left with prompt | silent
  · left
    rw [runs.ends, World.books_runOn]
    exact prompt
  · right
    have last : after.lastCompleted? job.handle = some job := by
      rw [World.lastCompleted?_of_completed runs.completed, if_pos rfl]
    refine ⟨job, last, fun told => runs.undelivered reached.sound ?_⟩
    obtain ⟨new, added, all⟩ := silent
    rw [runs.history, added] at told
    obtain ⟨e, listed, event⟩ := told
    rcases List.mem_append.mp listed with now | before
    · exact absurd event (all e now job.id)
    · exact reached.completed_of_delivered ⟨e, before, event⟩

/-- A delivery on another handle changes nothing about who was broken off on this one. -/
theorem RunsDelivery.promptAt_or_brokeOff_of_ne
    (runs : RunsDelivery mode w after job outcome rest)
    (turns : Books.Turns mode w.books after.books) (sound : Books.Sound mode w.books)
    (other : job.handle ≠ h) (before : w.books.PromptAt h ∨ w.BrokeOff h) :
    after.books.PromptAt h ∨ after.BrokeOff h := by
  rcases before with prompt | ⟨earlier, latest, broken⟩
  · obtain ⟨new, added, state⟩ := turns.promptAt sound.coherent prompt
    rcases state with still | ⟨c, listed, same⟩
    · exact .inl still
    · have one : new = [(job, outcome)] := List.append_cancel_right
        (added.symm.trans runs.completed)
      rw [one, List.mem_singleton] at listed
      rw [listed] at same
      exact absurd same other
  · right
    have still : after.lastCompleted? h = some earlier := by
      rw [World.lastCompleted?_of_completed runs.completed, if_neg other, latest]
    refine ⟨earlier, still, fun told => ?_⟩
    rcases runs.delivers.tells told rfl with before | same
    · exact broken before
    · -- the operation that was delivered before is another one
      obtain ⟨c, found, rfl⟩ := Option.map_eq_some_iff.mp latest
      apply runs.undelivered sound
      rw [← same]
      exact List.mem_map_of_mem (List.mem_of_find?_eq_some found)

/-- If a close waits on a quiet handle, then the last delivery on the handle was broken off. -/
theorem Reachable.promptAt_or_brokeOff (reached : Reachable mode w) (h : HandleId) :
    w.books.PromptAt h ∨ w.BrokeOff h := by
  refine Reachable.induct (P := fun w => w.books.PromptAt h ∨ w.BrokeOff h) ?_ ?_ reached
  · intro workers files
    exact .inl fun s known => by cases known
  · intro w after reached ih step
    have sound := reached.sound
    have turns := step.turns_of_sound sound
    rcases step.routine_or_delivery (known_of_sound sound) with
      routine | ⟨job, outcome, rest, runs⟩
    · exact routine.promptAt_or_brokeOff turns sound.coherent ih
    · by_cases own : job.handle = h
      · rw [← own]
        exact runs.promptAt_or_brokeOff_self reached
      · exact runs.promptAt_or_brokeOff_of_ne turns sound own ih

/-! ## Closes at rest -/

namespace World

/-- A close was carried out: its native close has returned, and it was made once; and its
    handler, if it has one, was called once. -/
structure CarriesOut (w : World) (a : Job) : Prop where
  made : (w.books.closesDone a.handle).length = 1
  called : a.completion.handler?.isSome = true → (w.callsOf a.id).length = 1

/-- A close was forgotten: it waits on a handle of which nothing is outstanding, and the last
    delivery there, which should have started it, was broken off by a panic. -/
structure Forgets (w : World) (a : Job) : Prop where
  waits : ∃ s job, w.handles[a.handle]? = some s ∧ s.isQuiet = true ∧
    s.pendingClose = some job ∧ job.ticket = a.ticket
  unmade : w.nativeCloses a.handle = 0
  uncalled : w.callsOf a.id = []
  brokeOff : w.BrokeOff a.handle

end World

/-- A close that is completed was carried out. -/
theorem carriesOut_of_completed (reached : Reachable mode w) {a : Job} (accepted : a ∈ w.accepted)
    (closes : a.Closes) {c : Job × Outcome} (completed : c ∈ w.completed)
    (same : c.1.ticket = a.ticket) : w.CarriesOut a := by
  have sound := reached.sound
  obtain ⟨made, ended⟩ := sound.made_of_completed accepted completed (congrArg Ticket.id same)
  have transfer : a.transfer = .close := (sound.traced.fits a accepted).close_iff.mpr closes
  constructor
  · -- it has come to an outcome, so its one call has returned
    rw [transfer] at made
    obtain ⟨e, older, calls⟩ : ∃ e older, w.books.exchangesOf a.id = e :: older := by
      rcases calls : w.books.exchangesOf a.id with _ | ⟨e, older⟩
      · rw [calls] at made
        rw [← Option.some.inj made.eq_afterCalls] at ended
        cases ended
      · exact ⟨e, older, rfl⟩
    have own : e ∈ w.books.exchangesOf a.id := by
      rw [calls]
      exact List.mem_cons_self
    have call : e.call = .close := by
      rw [calls] at made
      obtain ⟨v, before, makes, -⟩ := made.cons
      exact before.call_of_close makes
    obtain ⟨listed, handle⟩ := sound.handle_of_exchange accepted own
    have done : e ∈ w.books.closesDone a.handle :=
      List.mem_filter.mpr ⟨listed, decide_eq_true ⟨handle, call⟩⟩
    have once := sound.closes_le_one a.handle
    have some := List.length_pos_of_mem done
    omega
  · intro handled
    have called := sound.called_of_completed completed same handled
    exact Nat.le_antisymm (sound.callsOf_le_one a.id) (List.length_pos_of_ne_nil called)

/-- A close that waits at rest was forgotten. -/
theorem forgets_of_waiting (reached : Reachable mode w) (accounted : w.books.Accounted [])
    (rest : w.AtRest) {a : Job} (there : job ∈ w.books.underway) (same : job.ticket = a.ticket) :
    w.Forgets a := by
  have sound := reached.sound
  have waiting := there
  rw [Books.underway_of_atRest rest] at waiting
  obtain ⟨s, listed, waits⟩ := List.mem_filterMap.mp waiting
  obtain ⟨k, known⟩ := List.mem_iff_getElem?.mp listed
  have own : a.handle = k := by
    rw [← show job.handle = a.handle from congrArg Ticket.handle same]
    exact (sound.closing.waiting k s job known waits).handle
  have number : job.id = a.id := congrArg Ticket.id same
  have quiet := sound.quiet_of_rest accounted rest known
  obtain ⟨s', known', core⟩ := World.handles_of_books known
  subst core
  rw [← own] at known known'
  constructor
  · exact ⟨s', job, known', quiet, waits, same⟩
  · by_contra some
    have begun := World.begun_of_nativeCloses (Nat.pos_of_ne_zero some)
    obtain ⟨_, -, -, -, none⟩ := sound.of_begun begun
    exact none job waiting ((congrArg Ticket.handle same).trans rfl)
  · -- the handler is called for what is completed, and this is not
    rw [World.callsOf, Books.callsOf, List.filter_eq_nil_iff]
    intro call listed isOwn
    rw [sound.called, List.mem_filterMap] at listed
    obtain ⟨c, completed, called⟩ := listed
    have not := accounted.not_completed (ticket_mem_bag (List.mem_append_left _ there))
    apply not
    rw [show job.ticket.id = c.1.id from number.trans ((of_decide_eq_true isOwn).symm.trans
      (Books.operation_of_handlerCall called))]
    exact List.mem_map_of_mem completed
  · rcases reached.promptAt_or_brokeOff a.handle with prompt | brokeOff
    · have busy := prompt _ known (Option.isSome_iff_exists.mpr ⟨job, waits⟩)
      rw [quiet] at busy
      cases busy
    · exact brokeOff

/-- Callbacks may panic in a run, but native work does not.  Once all has come to rest, each
    close that was accepted has been carried out, unless the last delivery on its handle was
    itself broken off by a panic; then the close is forgotten. -/
theorem close_survives_all_but_last_panic {mode : Mode} {w : World} (reached : Reachable mode w)
    (returns : w.NativesReturn) (alive : w.IsAlive) (rest : w.AtRest) {a : Job}
    (accepted : a ∈ w.accepted) (closes : a.Closes) : w.CarriesOut a ∨ w.Forgets a := by
  have accounted := reached.accounted_of_returns alive returns
  have there := ticket_mem_bag accepted
  rw [show w.accepted = w.books.accepted from rfl, accounted.balanced, bag_nil, add_zero,
    Multiset.mem_add] at there
  rcases there with underway | completed
  · obtain ⟨job, listed, same⟩ := List.mem_map.mp (Multiset.mem_coe.mp underway)
    exact .inr (forgets_of_waiting reached accounted rest listed same)
  · obtain ⟨job, listed, same⟩ := List.mem_map.mp (Multiset.mem_coe.mp completed)
    obtain ⟨c, found, rfl⟩ := List.mem_map.mp listed
    exact .inl (carriesOut_of_completed reached accepted closes found same)

/-- A run that is chosen step by step, but for one task in it whose callbacks may panic. -/
def World.followPastTask (w : World) (before later : List Choice) : Option World :=
  ((w.follow before).bind World.runTask).bind (World.follow · later)

theorem reachable_of_followPastTask {workers : Nat} {files : FileTree}
    {before later : List Choice}
    (followed : (World.start workers files).followPastTask before later = some w) :
    Reachable .any w := by
  obtain ⟨second, ran, goes_on⟩ := Option.bind_eq_some_iff.mp followed
  obtain ⟨first, begun, runs⟩ := Option.bind_eq_some_iff.mp ran
  have reached : Reachable .any first := World.reachable_of_follow begun
  exact (reached.step (.task runs fun calm => by cases calm)).steps (World.steps_of_follow goes_on)

/-- A run in which the handler of the first of two writes panics, before a close that waits for
    both. -/
def firstPanicRun : Option World :=
  (World.start 1 ⟨[], []⟩).followPastTask
    [.body 0 [
      .openFile 0 { write := true } .log (.memory (.bytes []) none {}),
      .write 0 (.bytes [1]) 0 ⟨"first", [.panic none], []⟩,
      .write 0 (.bytes [2]) 1 ⟨"second", [], []⟩,
      .close 0 (some ⟨"closed", [], []⟩)],
    .take, .answer 0 (.moved 1 []), .finish 0]
    [.take, .answer 1 (.moved 1 []), .finish 1, .task,
    .take, .answer 2 (.moved 0 []), .finish 2, .task]

theorem close_survives_first_panic : ∃ w a, firstPanicRun = some w ∧ w.panicNote.isSome = true ∧
    w.NativesReturn ∧ w.IsAlive ∧ w.AtRest ∧ a ∈ w.accepted ∧ a.Closes ∧
    (w.CarriesOut a ∨ w.Forgets a) ∧ w.nativeCloses a.handle = 1 := by
  have stands : (firstPanicRun.bind fun w => w.accepted.head?.map fun a =>
      (w.panicNote.isSome, decide w.NativesReturn, w.restsUp,
        decide (a.completion.operation = .close), w.nativeCloses a.handle)) =
      some (true, true, true, true, 1) := by decide +kernel
  obtain ⟨w, run, found⟩ := Option.bind_eq_some_iff.mp stands
  obtain ⟨a, latest, same⟩ := Option.map_eq_some_iff.mp found
  obtain ⟨panicked, returns, rests, closes, once⟩ : w.panicNote.isSome = true ∧
      decide w.NativesReturn = true ∧ w.restsUp = true ∧
      decide (a.completion.operation = .close) = true ∧ w.nativeCloses a.handle = 1 := by
    simpa only [Prod.mk.injEq] using same
  obtain ⟨alive, rest⟩ := World.rest_of_restsUp rests
  have accepted : a ∈ w.accepted := List.mem_of_head? latest
  have returned := of_decide_eq_true returns
  have closing : a.completion.operation = .close := of_decide_eq_true closes
  exact ⟨w, a, run, panicked, returned, alive, rest, accepted, closing,
    close_survives_all_but_last_panic (reachable_of_followPastTask run) returned alive rest
      accepted closing, once⟩

/-- A run in which a close waits for one write, and the handler of that panics. -/
def lastPanicRun : Option World :=
  (World.start 1 ⟨[], []⟩).followPastTask
    [.body 0 [
      .openFile 0 { write := true } .log (.memory (.bytes []) none {}),
      .write 0 (.bytes [1]) 0 ⟨"written", [.panic none], []⟩,
      .close 0 (some ⟨"closed", [], []⟩)],
    .take, .answer 0 (.moved 1 []), .finish 0] []

/-- After the panic of the last handler the native file stays open, and the handler of the close
    is not called, although all is up, and nothing is under way any more. -/
theorem last_panic_loses_close : ∃ w a, lastPanicRun = some w ∧ Reachable .any w ∧
    w.NativesReturn ∧ w.IsAlive ∧ w.AtRest ∧ a ∈ w.accepted ∧ a.Closes ∧
    a.completion.handler?.isSome = true ∧ w.nativeCloses a.handle = 0 ∧
    w.callsOf a.id = [] := by
  have stands : (lastPanicRun.bind fun w => w.accepted.head?.map fun a =>
      (decide w.NativesReturn, w.restsUp, decide (a.completion.operation = .close),
        a.completion.handler?.isSome, w.nativeCloses a.handle, (w.callsOf a.id).length)) =
      some (true, true, true, true, 0, 0) := by decide +kernel
  obtain ⟨w, run, found⟩ := Option.bind_eq_some_iff.mp stands
  obtain ⟨a, latest, same⟩ := Option.map_eq_some_iff.mp found
  obtain ⟨returns, rests, closes, handled, unmade, uncalled⟩ : decide w.NativesReturn = true ∧
      w.restsUp = true ∧ decide (a.completion.operation = .close) = true ∧
      a.completion.handler?.isSome = true ∧ w.nativeCloses a.handle = 0 ∧
      (w.callsOf a.id).length = 0 := by simpa only [Prod.mk.injEq] using same
  obtain ⟨alive, rest⟩ := World.rest_of_restsUp rests
  have closing : a.completion.operation = .close := of_decide_eq_true closes
  exact ⟨w, a, run, reachable_of_followPastTask run, of_decide_eq_true returns, alive, rest,
    List.mem_of_head? latest, closing, handled, unmade, List.eq_nil_of_length_eq_zero uncalled⟩

end PinnedFile
