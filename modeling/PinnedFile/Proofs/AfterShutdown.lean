/-
  PinnedFile.Proofs.AfterShutdown

  After a shutdown nothing starts.

  A queue that is shut down hands nothing out and takes nothing in, but for what a push brings
  that has found it open.  So once the loop is shut down, the only task that still does anything
  is the one that the loop was on at that moment, and once the workers are shut down, native calls
  are made only for the jobs that were with them.  What a stage of the loop still allows is said
  for every change there is; it never grows, and at last nothing is left that only a task brings
  about.
-/

import PinnedFile.Proofs.AfterShutdown.Queues
import PinnedFile.Proofs.SingleWorker.Submissions

namespace PinnedFile

open Run

/-! ## What is left of a task -/

namespace Event

/-- A task begins that delivers nothing. -/
def IsBeginning : Event → Prop
  | .started _ | .later => True
  | _ => False

/-- The outcome of an operation reaches the loop, or a handler, a listener or the sink is called
    with it. -/
def IsOutcome : Event → Prop
  | .completed .. | .handled .. | .data .. | .ended .. | .failed .. | .unheard .. => True
  | _ => False

/-- What is brought about when the outcome of this operation is delivered. -/
def IsOutcomeOf (job : Job) (outcome : Outcome) : Event → Prop
  | .completed other reached => other = job ∧ reached = outcome
  | .handled id .. => id = job.id
  | .data h .. | .ended h .. | .failed h .. | .unheard h .. => h = job.handle
  | _ => False

/-- What else only the code of a task brings about: an operation is accepted, a drain callback is
    called, a delivery comes to its end. -/
def IsTasks : Event → Prop
  | .accepted _ | .drained .. | .delivered _ => True
  | _ => False

end Event

namespace Stage

/-- The loop is on the delivery of an outcome, and has not told it yet. -/
def Delivers (stage : Stage) (job : Job) (outcome : Outcome) : Prop :=
  stage = .taken (.deliver job outcome) ∨ stage = .completed job outcome

/-- What may still happen if the loop takes no further task. -/
structure Allows (stage : Stage) (e : Event) : Prop where
  /-- No task begins but the one that was taken. -/
  beginning : e.IsBeginning → ∃ task, stage = .taken task ∧ task.job? = none
  /-- Nobody is called with an outcome but that of the delivery under way. -/
  outcome : e.IsOutcome → ∃ job outcome, stage.Delivers job outcome ∧ e.IsOutcomeOf job outcome
  /-- Without a task nothing is accepted and no callback is called. -/
  task : e.IsTasks → stage ≠ .idle

/-- The bytes of a handle that the delivery under way still takes off what is outstanding. -/
def releases (stage : Stage) (h : HandleId) : Nat :=
  match stage with
  | .taken (.deliver job _) => if job.handle = h then job.completion.outstanding else 0
  | _ => 0

/-- Events that only clients and workers bring about are always allowed. -/
theorem allows_of_aside {stage : Stage} {e : Event} (beginning : ¬ e.IsBeginning)
    (outcome : ¬ e.IsOutcome) (task : ¬ e.IsTasks) : stage.Allows e :=
  ⟨fun is => absurd is beginning, fun is => absurd is outcome, fun is => absurd is task⟩

/-- A stage allows no more than another if it is not idle, unless that one is too, and delivers
    nothing. -/
theorem Allows.of_working {stage : Stage} {e : Event} (allows : Stage.working.Allows e)
    (busy : stage ≠ .idle) : stage.Allows e where
  beginning is := by
    obtain ⟨task, working, -⟩ := allows.beginning is
    cases working
  outcome is := by
    obtain ⟨job, outcome, working | working, -⟩ := allows.outcome is
    · cases working
    · cases working
  task _ := busy

theorem Allows.of_idle {stage : Stage} {e : Event} (allows : Stage.idle.Allows e) :
    stage.Allows e where
  beginning is := by
    obtain ⟨task, idle, -⟩ := allows.beginning is
    cases idle
  outcome is := by
    obtain ⟨job, outcome, idle | idle, -⟩ := allows.outcome is
    · cases idle
    · cases idle
  task is := absurd rfl (allows.task is)

end Stage

theorem Event.IsClients.allows {stage : Stage} {e : Event} (clients : e.IsClients)
    (busy : stage ≠ .idle) : stage.Allows e where
  beginning is := by
    cases e with
    | started | later => cases clients
    | _ => cases is
  outcome is := by
    cases e with
    | completed | handled | data | ended | failed | unheard => cases clients
    | _ => cases is
  task _ := busy

/-- What a client does outside the loop calls nobody and has nothing accepted. -/
theorem Event.IsClients.allows_of_no_call {stage : Stage} {e : Event} (clients : e.IsClients)
    (none : e.caller? = none) : stage.Allows e := by
  refine Stage.allows_of_aside (fun is => ?_) (fun is => ?_) fun is => ?_
  · cases e with
    | started | later => cases clients
    | _ => cases is
  · cases e with
    | completed | handled | data | ended | failed | unheard => cases clients
    | _ => cases is
  · cases e with
    | accepted | drained => cases none
    | delivered => cases clients
    | _ => cases is

namespace Stage

variable {job : Job} {outcome : Outcome}

theorem not_delivers_working : ¬ Stage.working.Delivers job outcome := by
  rintro (none | none) <;> cases none

theorem not_delivers_idle : ¬ Stage.idle.Delivers job outcome := by
  rintro (none | none) <;> cases none

end Stage

/-! ## Every moment -/

variable {w after : World} {m m' m'' : Moment} {job : Job} {outcome : Outcome}
  {passing : List Task}

/-- At every moment the queue of the workers is empty once it is shut down, and what is on its
    way, in the hands of the loop or being pushed was accepted. -/
structure Moment.Orderly (m : Moment) : Prop where
  books : m.world.books.Orderly
  delivering : ∀ job outcome, m.stage.Delivers job outcome → job.id < m.world.nextOperation
  passing : ∀ job ∈ m.passing.filterMap Task.job?, job.id < m.world.nextOperation

/-- Every change keeps the moments orderly. -/
theorem Next.orderly (next : Next m m') (orderly : m.Orderly) : m'.Orderly := by
  obtain ⟨books, delivering, passing⟩ := orderly
  cases next with
  | @begin w _ task rest next =>
    refine ⟨⟨books.jobs, fun job there => ?_⟩, fun job outcome taken => ?_, passing⟩
    · exact books.numbered job (Books.underway_taken (b := w.books) next there)
    · rcases taken with taken | taken
      · obtain rfl := Stage.taken.inj taken
        exact books.numbered job (Books.underway_of_posted (Queue.mem_of_pop next))
      · cases taken
  | @start w _ task plain =>
    have same : (w.starting task).books = w.books := w.books_starting task
    refine ⟨?_, fun _ _ delivers => absurd delivers Stage.not_delivers_working, ?_⟩
    · rw [same]
      exact books
    · rwa [show (w.starting task).nextOperation = w.nextOperation from
        congrArg Books.nextOperation same]
  | @complete w _ job outcome here =>
    refine ⟨?_, fun other reached stays => ?_, passing⟩
    · rw [World.completing, World.books_record_completed,
        World.books_modifyHandle (·.releasing job.completion) fun _ => rfl]
      have released := books.modify (h := job.handle) (f := (·.releasing job.completion))
        fun _ _ _ waits => .inl waits
      exact ⟨released.jobs, released.numbered⟩
    · rcases stays with stays | stays
      · cases stays
      · obtain ⟨rfl, rfl⟩ := Stage.completed.inj stays
        exact delivering _ _ (.inl rfl)
  | @tell w _ job outcome here =>
    obtain ⟨handlerCalls, callers, same⟩ := w.books_told job outcome
    refine ⟨?_, fun _ _ delivers => absurd delivers Stage.not_delivers_working, ?_⟩
    · rw [same]
      exact ⟨books.jobs, books.numbered⟩
    · rwa [show (w.told job outcome).nextOperation = w.nextOperation from
        congrArg Books.nextOperation same]
  | chore chore =>
    exact ⟨chore.orderly books, fun _ _ delivers => absurd delivers Stage.not_delivers_working,
      fun job listed => (passing job listed).trans_le chore.leavesShut.accepts.next⟩
  | leave left =>
    exact ⟨books, fun _ _ delivers => absurd delivers Stage.not_delivers_idle, passing⟩
  | enter context alive =>
    exact ⟨⟨books.jobs, books.numbered⟩,
      fun _ _ delivers => absurd delivers Stage.not_delivers_working, passing⟩
  | pass alive plain =>
    refine ⟨books, delivering, fun job listed => passing job ?_⟩
    rwa [List.filterMap_cons_none plain] at listed
  | passOutcome alive running ended once =>
    refine ⟨books, delivering, fun job listed => ?_⟩
    rcases List.mem_cons.mp listed with rfl | before
    · exact books.numbered _ (Books.underway_of_running running)
    · exact passing job before
  | @land w stage before behind task =>
    have next := (w.accepts_landed task).next
    refine ⟨World.orderly_landed books fun job delivers => passing job ?_,
      fun job outcome delivers => (delivering job outcome delivers).trans_le next,
      fun job listed => (passing job ?_).trans_le next⟩
    · exact List.mem_filterMap.mpr ⟨task, List.mem_append_right _ List.mem_cons_self, delivers⟩
    · obtain ⟨other, there, delivers⟩ := List.mem_filterMap.mp listed
      have before : other ∈ before ++ task :: behind :=
        List.perm_middle.mem_iff.mpr (List.mem_cons_of_mem _ there)
      exact List.mem_filterMap.mpr ⟨other, before, delivers⟩
  | @finish w _ _ job outcome shut running ended once =>
    have next := (w.leavesShut_finish job outcome).accepts.next
    exact ⟨World.orderly_finish books running,
      fun job outcome delivers => (delivering job outcome delivers).trans_le next,
      fun job listed => (passing job listed).trans_le next⟩
  | elsewhere stage change =>
    have next := change.leavesShut.accepts.next
    exact ⟨change.orderly books,
      fun job outcome stays => (delivering job outcome stays).trans_le next,
      fun job listed => (passing job listed).trans_le next⟩

theorem Later.orderly (later : Later m m') (orderly : m.Orderly) : m'.Orderly := by
  induction later with
  | refl => exact orderly
  | tail _ last ih => exact last.orderly ih

theorem Moment.Reached.orderly (reached : m.Reached) : m.Orderly := by
  obtain ⟨workers, files, later⟩ := reached
  refine Later.orderly later ⟨⟨fun shut => ?_, fun job there => ?_⟩, ?_, fun job listed => ?_⟩
  · cases shut
  · exact absurd there List.not_mem_nil
  · exact fun _ _ delivers => absurd delivers Stage.not_delivers_idle
  · exact absurd listed List.not_mem_nil

/-! ## What is noted -/

theorem Chore.notes (chore : Chore w after) {stage : Stage} (busy : stage ≠ .idle) :
    Notes (fun e => stage.Allows e.event) w after := by
  cases chore with
  | move move => exact move.notes.mono fun _ clients => clients.1.allows busy
  | delivered id => exact notes_record ⟨False.elim, False.elim, fun _ => busy⟩
  | goOn here => exact World.notes_readingOn.mono fun _ clients => clients.1.allows busy
  | closeIfQuiet h => exact notes_closeIfQuiet.mono fun _ clients => clients.1.allows busy
  | post | switch => exact notes_of_same rfl

/-- Without a context nothing is accepted and nobody is called. -/
theorem Move.callers_of_outside (move : Move w after) (outside : w.context = none) :
    after.callers = w.callers := by
  have nobody {s : Handle} (here : w.books.context = some s.owner) : False := by
    rw [show w.books.context = none from outside] at here
    cases here
  rcases move.books with same | entry
  · exact congrArg Books.callers same
  · show after.books.callers = w.books.callers
    generalize after.books = b at entry
    cases entry with
    | accept admits | close admits | closeLater admits => exact (nobody admits.here).elim
    | call home =>
      obtain ⟨s, -, here⟩ := home
      exact (nobody here).elim
    | «open» fresh here => exact (nobody here).elim
    | post | shutDown => rfl

theorem Moves.callers_of_outside (moves : Moves w after) (outside : w.context = none) :
    after.callers = w.callers := by
  induction moves with
  | refl => rfl
  | tail before last ih =>
    exact (last.callers_of_outside ((Moves.context before).trans outside)).trans ih

/-- What others do brings about nothing that only a task does. -/
theorem Elsewhere.notes (change : Elsewhere w after) (stage : Stage) :
    Notes (fun e => stage.Allows e.event) w after := by
  have aside {e : Event} (beginning : ¬ e.IsBeginning) (outcome : ¬ e.IsOutcome)
      (task : ¬ e.IsTasks) : stage.Allows e := Stage.allows_of_aside beginning outcome task
  cases change with
  | outside c =>
    have moves := moves_command [] c { w with context := none }
    obtain ⟨new, added, noted⟩ := Moves.notes moves
    refine ⟨new, added, fun e listed => (noted e listed).1.allows_of_no_call ?_⟩
    -- the callers are those of before, so none of the new entries has one
    have same := Moves.callers_of_outside moves rfl
    rw [World.callers, World.callers, added, List.filterMap_append] at same
    have none := List.filterMap_eq_nil_iff.mp (List.append_left_eq_self.mp same) e listed
    exact Option.map_eq_none_iff.mp none
  | freshContext | takePanic | haltLoop => exact notes_of_same rfl
  | take takes =>
    obtain ⟨number, added⟩ := World.history_takeJob takes
    refine ⟨[_], added, fun e listed => ?_⟩
    rw [List.mem_singleton.mp listed]
    exact aside id id id
  | answer a files backends running makes =>
    refine ⟨[_], World.history_answer, fun e listed => ?_⟩
    rw [List.mem_singleton.mp listed]
    exact aside id id id
  | stopLoop origin => exact notes_of_same World.history_sweep
  | stopWorkers origin shut =>
    refine ⟨[⟨w.context, .shutDown, w.handles⟩], World.history_sweep, fun e listed => ?_⟩
    rw [List.mem_singleton.mp listed]
    exact aside id id id
  | shutDown origin =>
    refine ⟨[⟨w.context, .shutDown, w.handles⟩], World.history_sweep, fun e listed => ?_⟩
    rw [List.mem_singleton.mp listed]
    exact aside id id id

/-- Who is called with an outcome is called for that delivery. -/
theorem notes_told_of_delivers {stage : Stage} (delivers : stage.Delivers job outcome)
    (busy : stage ≠ .idle) : Notes (fun e => stage.Allows e.event) w (w.told job outcome) := by
  refine notes_told_of_calls (fun _ _ => ?_) fun e called => ?_
  · exact ⟨False.elim, fun _ => ⟨job, outcome, delivers, rfl⟩, False.elim⟩
  · cases e with
    | data | ended | failed | unheard =>
      exact ⟨False.elim, fun _ => ⟨job, outcome, delivers, called⟩, False.elim⟩
    | drained => exact ⟨False.elim, False.elim, fun _ => busy⟩
    | _ => cases called

/-! ## The loop is shut down -/

/-- Whoever pushes a task is refused: only pushes that were under way put their tasks into the
    queue of the loop, and what waits there, be it one of these, stays there or is dropped. -/
def Moment.RefusesPushes (m m' : Moment) : Prop :=
  ∃ landed dropped, (landed ++ m'.passing).Perm m.passing ∧
    (dropped ++ m'.world.tasks.items).Perm (m.world.tasks.items ++ landed)

theorem refusesPushes_refl : m.RefusesPushes m :=
  ⟨[], [], .refl _, by rw [List.nil_append, List.append_nil]⟩

theorem Moment.RefusesPushes.trans (first : m.RefusesPushes m') (second : m'.RefusesPushes m'') :
    m.RefusesPushes m'' := by
  obtain ⟨landed, dropped, passing, items⟩ := first
  obtain ⟨landed', dropped', passing', items'⟩ := second
  refine ⟨landed ++ landed', dropped ++ dropped', ?_, ?_⟩
  · rw [List.append_assoc]
    exact (passing'.append_left landed).trans passing
  · have kept := items'.append_left dropped
    have more := items.append_right landed'
    rw [← List.append_assoc, ← List.append_assoc] at kept
    rw [List.append_assoc m.world.tasks.items] at more
    exact kept.trans more

/-- Without a push that comes to its end, the queue stays as it is or is emptied. -/
theorem refusesPushes_of_keepsShut (passing : m'.passing = m.passing)
    (keeps : Books.KeepsShut m.world.tasks m'.world.tasks)
    (shut : m.world.tasks.isOpen = false) : m.RefusesPushes m' := by
  rcases keeps shut with same | emptied
  · exact ⟨[], [], by rw [passing, List.nil_append], by rw [same, List.append_nil, List.nil_append]⟩
  · exact ⟨[], m.world.tasks.items, by rw [passing, List.nil_append], by rw [emptied]⟩

/-- What comes of a change while the loop is shut down: it stays so, no more is allowed than
    before, pushes are refused, and of what is outstanding no more is given back than the delivery
    under way takes off. -/
structure Ebbs (m m' : Moment) : Prop where
  shut : m'.world.tasks.isOpen = false
  stage : ∀ e, m'.stage.Allows e → m.stage.Allows e
  refuses : m.RefusesPushes m'
  notes : Notes (fun e => m.stage.Allows e.event) m.world m'.world
  outstanding : ∀ (h : HandleId) (s : Handle), m.world.handles[h]? = some s →
    ∃ s', m'.world.handles[h]? = some s' ∧
      s.outstanding + m'.stage.releases h ≤ s'.outstanding + m.stage.releases h
  accepts : m.world.books.Accepts m'.world.books

theorem ebbs_refl (shut : m.world.tasks.isOpen = false) : Ebbs m m :=
  ⟨shut, fun _ => id, refusesPushes_refl, notes_refl, fun _ s known => ⟨s, known, Nat.le_refl _⟩,
    Books.accepts_of_same rfl rfl⟩

theorem Ebbs.trans (first : Ebbs m m') (second : Ebbs m' m'') : Ebbs m m'' where
  shut := second.shut
  stage e allows := first.stage e (second.stage e allows)
  refuses := first.refuses.trans second.refuses
  notes := first.notes.trans (second.notes.mono fun e => first.stage e.event)
  outstanding h s known := by
    obtain ⟨s', known', more⟩ := first.outstanding h s known
    obtain ⟨s'', known'', more'⟩ := second.outstanding h s' known'
    exact ⟨s'', known'', by omega⟩
  accepts := first.accepts.trans second.accepts

/-- If nothing waits for the loop and no push is under way, nothing waits for it any more. -/
theorem Ebbs.empty (ebbs : Ebbs m m') (emptied : m.world.tasks = ⟨[], false⟩)
    (none : m.passing = []) : m'.world.tasks = ⟨[], false⟩ := by
  obtain ⟨landed, dropped, passing, items⟩ := ebbs.refuses
  rw [none] at passing
  have nothing := (List.append_eq_nil_iff.mp passing.eq_nil).1
  rw [emptied, nothing] at items
  have waiting : m'.world.tasks.items = [] := (List.append_eq_nil_iff.mp items.eq_nil).2
  have shut := ebbs.shut
  rcases tasks : m'.world.tasks with ⟨rest, isOpen⟩
  rw [tasks] at waiting shut
  rw [show rest = [] from waiting, show isOpen = false from shut]

/-- Handles on the books are as in the world, but for their streams. -/
theorem World.outstanding_of_books {h : HandleId} {s : Handle}
    (keeps : Books.KeepsOutstanding w.books.handles after.books.handles)
    (known : w.handles[h]? = some s) :
    ∃ s', after.handles[h]? = some s' ∧ s.outstanding ≤ s'.outstanding := by
  obtain ⟨core, known', more⟩ := keeps h s.core (World.books_handles known)
  obtain ⟨s', found, rfl⟩ := World.handles_of_books known'
  exact ⟨s', found, more⟩

/-- A change that begins no task and completes nothing. -/
theorem ebbs_of_leavesShut {stage stage' : Stage} (shut : w.tasks.isOpen = false)
    (leaves : w.books.LeavesShut after.books)
    (allows : ∀ e, stage'.Allows e → stage.Allows e)
    (releases : ∀ h, stage'.releases h ≤ stage.releases h)
    (notes : Notes (fun e => stage.Allows e.event) w after) :
    Ebbs ⟨w, stage, passing⟩ ⟨after, stage', passing⟩ where
  shut := leaves.tasks.isOpen shut
  stage := allows
  refuses := refusesPushes_of_keepsShut rfl leaves.tasks shut
  notes := notes
  outstanding h s known := by
    obtain ⟨s', known', more⟩ := World.outstanding_of_books leaves.outstanding known
    exact ⟨s', known', Nat.add_le_add more (releases h)⟩
  accepts := leaves.accepts

/-- Whoever is told of a delivery once it is completed is told of that delivery. -/
theorem Stage.Allows.of_completed {e : Event}
    (allows : (Stage.completed job outcome).Allows e) :
    (Stage.taken (.deliver job outcome)).Allows e where
  beginning is := by
    obtain ⟨task, completed, -⟩ := allows.beginning is
    cases completed
  outcome is := by
    obtain ⟨other, reached, delivers, own⟩ := allows.outcome is
    rcases delivers with delivers | delivers
    · cases delivers
    · obtain ⟨rfl, rfl⟩ := Stage.completed.inj delivers
      exact ⟨_, _, .inl rfl, own⟩
  task _ same := by cases same

/-- The completion of an operation gives back no more than what counted for it. -/
theorem World.outstanding_completing {h : HandleId} {s : Handle}
    (known : w.handles[h]? = some s) :
    ∃ s', (w.completing job outcome).handles[h]? = some s' ∧
      s.outstanding ≤ s'.outstanding + (Stage.taken (.deliver job outcome)).releases h := by
  have changed : (w.completing job outcome).handles =
      w.handles.modify job.handle (·.releasing job.completion) := rfl
  by_cases own : job.handle = h
  · refine ⟨s.releasing job.completion, by simp [changed, own, known], ?_⟩
    show s.outstanding ≤ s.outstanding - job.completion.outstanding
      + if job.handle = h then job.completion.outstanding else 0
    rw [if_pos own]
    omega
  · exact ⟨s, by simp [changed, own, known], Nat.le_add_right _ _⟩

/-- While the loop is shut down it takes no task, and goes on with the one that it is on. -/
theorem Next.ebbs (next : Next m m') (shut : m.world.tasks.isOpen = false) : Ebbs m m' := by
  cases next with
  | begin next =>
    -- no task is taken from a queue that is shut down, and no other begins
    rw [(Queue.pop_eq_some_iff.mp next).1] at shut
    cases shut
  | enter context alive =>
    rw [show _ = false from shut] at alive
    cases alive
  | @start w _ task plain =>
    have busy : Stage.taken task ≠ .idle := fun same => by cases same
    refine ebbs_of_leavesShut shut ?_ (fun e allows => allows.of_working busy)
      (fun _ => Nat.zero_le _) ?_
    · rw [World.books_starting]
      exact Books.leavesShut_of_same rfl rfl rfl rfl rfl
    · cases task with
      | deliver => cases plain
      | client | later =>
        exact notes_record ⟨fun _ => ⟨_, rfl, plain⟩, False.elim, False.elim⟩
  | @complete w _ job outcome here =>
    refine ⟨shut, fun _ allows => allows.of_completed,
      refusesPushes_of_keepsShut rfl Books.keepsShut_refl shut, ?_, fun h s known => ?_,
      Books.accepts_of_same rfl rfl⟩
    · exact notes_record (w := w.modifyHandle job.handle _)
        ⟨False.elim, fun _ => ⟨job, outcome, .inl rfl, rfl, rfl⟩, False.elim⟩
    · exact World.outstanding_completing known
  | @tell w _ job outcome here =>
    have busy : Stage.completed job outcome ≠ .idle := fun same => by cases same
    obtain ⟨handlerCalls, callers, same⟩ := w.books_told job outcome
    refine ebbs_of_leavesShut shut ?_ (fun e allows => allows.of_working busy)
      (fun _ => Nat.le_refl _) (notes_told_of_delivers (.inr rfl) busy)
    rw [same]
    exact Books.leavesShut_of_same rfl rfl rfl rfl rfl
  | chore chore =>
    exact ebbs_of_leavesShut shut chore.leavesShut (fun _ => id) (fun _ => Nat.le_refl _)
      (chore.notes fun same => by cases same)
  | leave left =>
    exact ebbs_of_leavesShut shut (Books.leavesShut_of_same rfl rfl rfl rfl rfl)
      (fun _ allows => allows.of_idle) (fun _ => Nat.le_refl _) notes_refl
  | pass alive | passOutcome alive =>
    -- no push that begins now finds the loop up
    rw [show _ = false from shut] at alive
    cases alive
  | @land w stage before behind task =>
    have lands : (task :: (before ++ behind)).Perm (before ++ task :: behind) :=
      List.perm_middle.symm
    refine ⟨shut, fun _ => id, ⟨[task], [], lands, .refl _⟩, notes_of_same World.history_landed,
      fun h s known => ?_, w.accepts_landed task⟩
    obtain ⟨s', known', more⟩ := World.outstanding_of_books (w.keepsOutstanding_landed task) known
    exact ⟨s', known', Nat.add_le_add_right more _⟩
  | finish =>
    exact ebbs_of_leavesShut shut (World.leavesShut_finish _ _ _) (fun _ => id)
      (fun _ => Nat.le_refl _) (notes_of_same World.history_finish)
  | elsewhere stage change =>
    exact ebbs_of_leavesShut shut change.leavesShut (fun _ => id) (fun _ => Nat.le_refl _)
      (change.notes stage)

theorem Later.ebbs (later : Later m m') (shut : m.world.tasks.isOpen = false) : Ebbs m m' := by
  induction later with
  | refl => exact ebbs_refl shut
  | tail _ last ih => exact ih.trans (last.ebbs ih.shut)

/-! ## The workers are shut down -/

/-- What comes of a change while the workers are shut down: they stay so, nothing is submitted or
    taken, and native calls are made only for jobs that were with a worker before. -/
structure LeavesWorkers (w after : World) : Prop where
  shut : after.jobs.isOpen = false
  submissions : after.submissions = w.submissions
  takings : after.takings = w.takings
  running : ∀ job ∈ after.running, ∃ before ∈ w.running, before.id = job.id
  performed : ∃ new, after.exchanges = new ++ w.exchanges ∧
    ∀ x ∈ new, ∃ job ∈ w.running, job.id = x.operation

theorem KeepsQueue.leavesWorkers (keeps : KeepsQueue w after) (shut : w.jobs.isOpen = false)
    (running : after.running = w.running) (exchanges : after.exchanges = w.exchanges) :
    LeavesWorkers w after where
  shut := by rw [keeps.jobs, shut]
  submissions := keeps.submissions
  takings := keeps.takings
  running job listed := ⟨job, running ▸ listed, rfl⟩
  performed := ⟨[], exchanges, fun _ listed => absurd listed List.not_mem_nil⟩

/-- A change that touches no job, no worker and no note of the history. -/
theorem leavesWorkers_of_same (shut : w.jobs.isOpen = false) (jobs : after.jobs = w.jobs)
    (history : after.history = w.history) (running : after.running = w.running)
    (exchanges : after.exchanges = w.exchanges) : LeavesWorkers w after :=
  (keepsQueue_of_same jobs history).leavesWorkers shut running exchanges

theorem LeavesWorkers.trans {middle : World} (first : LeavesWorkers w middle)
    (second : LeavesWorkers middle after) : LeavesWorkers w after where
  shut := second.shut
  submissions := second.submissions.trans first.submissions
  takings := second.takings.trans first.takings
  running job listed := by
    obtain ⟨job', listed', same'⟩ := second.running job listed
    obtain ⟨job'', listed'', same''⟩ := first.running job' listed'
    exact ⟨job'', listed'', same''.trans same'⟩
  performed := by
    obtain ⟨new, added, own⟩ := first.performed
    obtain ⟨new', added', own'⟩ := second.performed
    refine ⟨new' ++ new, by rw [added', added, List.append_assoc], fun x listed => ?_⟩
    rcases List.mem_append.mp listed with later | before
    · obtain ⟨job', listed', same'⟩ := own' x later
      obtain ⟨job'', listed'', same''⟩ := first.running job' listed'
      exact ⟨job'', listed'', same''.trans same'⟩
    · exact own x before

/-- Nothing is submitted to workers that are shut down. -/
theorem NotesQueue.submissions_of_shut (notes : NotesQueue w after)
    (shut : w.jobs.isOpen = false) : after.submissions = w.submissions := by
  obtain ⟨queues, -⟩ := notes
  generalize after.jobs = jobs at queues
  generalize after.submissions = submissions at queues
  cases queues with
  | nothing | shutDown => rfl
  | job job isOpen =>
    rw [shut] at isOpen
    cases isOpen

theorem Chore.sameWork (chore : Chore w after) : Books.SameWork w.books after.books := by
  rcases chore.books with ⟨context, same⟩ | entry | ⟨h, same⟩
  · rw [same]
    exact ⟨rfl, rfl, rfl, rfl, rfl⟩
  · exact entry.sameWork
  · rw [same]
    exact Books.sameWork_closeIfQuiet _ _

theorem Chore.leavesWorkers (chore : Chore w after) (shut : w.jobs.isOpen = false) :
    LeavesWorkers w after where
  shut := chore.leavesShut.jobs shut
  submissions := chore.notesQueue.submissions_of_shut shut
  takings := chore.notesQueue.takings
  running job listed := by
    have running : after.running = w.running := chore.sameWork.running
    exact ⟨job, running ▸ listed, rfl⟩
  performed := ⟨[], chore.sameWork.exchanges, fun _ listed => absurd listed List.not_mem_nil⟩

theorem Chores.leavesWorkers (chores : Chores w after) (shut : w.jobs.isOpen = false) :
    LeavesWorkers w after := by
  induction chores with
  | refl => exact keepsQueue_refl.leavesWorkers shut rfl rfl
  | tail _ last ih => exact ih.trans (last.leavesWorkers ih.shut)

theorem keepsQueue_closeLoop {origin : Origin} : KeepsQueue w (w.closeLoop origin).sweep := by
  have closed : KeepsQueue w (w.closeLoop origin) := keepsQueue_of_same rfl rfl
  exact closed.trans keepsQueue_sweep

theorem Elsewhere.leavesWorkers (change : Elsewhere w after) (shut : w.jobs.isOpen = false) :
    LeavesWorkers w after := by
  -- a shutdown of workers that are shut down already
  have stopped {v : World}
      (books : v.books = { w.books with jobs := ⟨[], false⟩, tasks := v.tasks })
      (history : v.history = ⟨w.context, .shutDown, w.handles⟩ :: w.history) :
      LeavesWorkers w v := by
    refine ⟨congrArg (fun b : Books => b.jobs.isOpen) books, ?_, ?_, fun job listed => ?_, ?_⟩
    · rw [World.submissions, history]
      rfl
    · rw [World.takings, history]
      rfl
    · rw [show v.running = w.running from congrArg Books.running books] at listed
      exact ⟨job, listed, rfl⟩
    · exact ⟨[], congrArg Books.exchanges books, fun _ none => absurd none List.not_mem_nil⟩
  cases change with
  | outside c =>
    have entered : LeavesWorkers w { w with context := none } :=
      leavesWorkers_of_same shut rfl rfl rfl rfl
    have done := Chores.leavesWorkers (Moves.chores (moves_command [] c { w with context := none }))
      shut
    refine (entered.trans done).trans ?_
    exact leavesWorkers_of_same done.shut rfl rfl rfl rfl
  | freshContext => exact leavesWorkers_of_same shut rfl rfl rfl rfl
  | takePanic => exact leavesWorkers_of_same shut rfl rfl rfl rfl
  | take takes =>
    -- no job is taken from a queue that is shut down
    obtain ⟨job, rest, next, -⟩ := World.exists_takeJob takes
    rw [(Queue.pop_eq_some_iff.mp next).1] at shut
    cases shut
  | @answer job call a files backends running makes =>
    have keeps : KeepsQueue w ({ w with files, backends }.answer job call a) := keepsQueue_answer
    have books : ({ w with files, backends }.answer job call a).books = _ := World.books_answer
    refine ⟨by rw [keeps.jobs, shut], keeps.submissions, keeps.takings, fun other listed => ?_, ?_⟩
    · rw [show World.running _ = _ from congrArg Books.running books] at listed
      rcases List.mem_append.mp listed with left | goes_on
      · exact ⟨other, List.mem_of_mem_eraseP left, rfl⟩
      · obtain ⟨t, -, rfl⟩ := List.mem_map.mp goes_on
        exact ⟨job, running, rfl⟩
    · refine ⟨[⟨job.id, job.handle, call, a⟩], congrArg Books.exchanges books, fun x listed => ?_⟩
      rw [List.mem_singleton.mp listed]
      exact ⟨job, running, rfl⟩
  | haltLoop => exact leavesWorkers_of_same shut rfl rfl rfl rfl
  | stopLoop origin =>
    have books : (w.closeLoop origin).sweep.books = _ := World.books_stopLoop
    exact keepsQueue_closeLoop.leavesWorkers shut (congrArg Books.running books)
      (congrArg Books.exchanges books)
  | stopWorkers origin loop =>
    have books : ((w.closeWorkers origin).record .shutDown).sweep.books = _ :=
      World.books_stopWorkers
    refine stopped ?_ World.history_sweep
    rw [books]
    exact congrArg (fun tasks => { w.books with jobs := ⟨[], false⟩, tasks })
      (congrArg Books.tasks books).symm
  | shutDown origin =>
    have books : (w.shutDown origin).books = _ := World.books_shutDown
    refine stopped ?_ World.history_sweep
    rw [books]
    exact congrArg (fun tasks => { w.books with jobs := ⟨[], false⟩, tasks })
      (congrArg Books.tasks books).symm

/-- A worker that is done with a job has nothing taken or submitted. -/
theorem leavesWorkers_of_withoutJob (job : Job) (shut : w.jobs.isOpen = false)
    (keeps : KeepsQueue w after) (running : after.running = (w.withoutJob job).running)
    (exchanges : after.exchanges = w.exchanges) : LeavesWorkers w after where
  shut := by rw [keeps.jobs, shut]
  submissions := keeps.submissions
  takings := keeps.takings
  running other listed := by
    rw [running] at listed
    exact ⟨other, List.mem_of_mem_eraseP listed, rfl⟩
  performed := ⟨[], exchanges, fun _ none => absurd none List.not_mem_nil⟩

theorem World.leavesWorkers_landed (task : Task) (shut : w.jobs.isOpen = false) :
    LeavesWorkers w (w.landed task) := by
  cases task with
  | deliver job outcome =>
    exact leavesWorkers_of_withoutJob job shut ⟨rfl, rfl, rfl⟩ rfl rfl
  | client | later => exact leavesWorkers_of_same shut rfl rfl rfl rfl

theorem World.leavesWorkers_finish (shut : w.jobs.isOpen = false) :
    LeavesWorkers w (w.finish job outcome) := by
  have books : (w.finish job outcome).books = _ := World.books_finish
  exact leavesWorkers_of_withoutJob job shut keepsQueue_finish
    (congrArg Books.running books) (congrArg Books.exchanges books)

/-- While the workers are shut down, nothing that the loop or anybody does starts a job. -/
theorem Next.leavesWorkers (next : Next m m') (shut : m.world.jobs.isOpen = false) :
    LeavesWorkers m.world m'.world := by
  cases next with
  | begin => exact leavesWorkers_of_same shut rfl rfl rfl rfl
  | enter => exact leavesWorkers_of_same shut rfl rfl rfl rfl
  | leave | pass | passOutcome => exact keepsQueue_refl.leavesWorkers shut rfl rfl
  | @start w _ task plain =>
    have books := w.books_starting task
    exact (keepsQueue_starting w task).leavesWorkers shut (congrArg Books.running books)
      (congrArg Books.exchanges books)
  | complete => exact KeepsQueue.leavesWorkers ⟨rfl, rfl, rfl⟩ shut rfl rfl
  | @tell w _ job outcome here =>
    obtain ⟨handlerCalls, callers, books⟩ := w.books_told job outcome
    exact (keepsQueue_told w job outcome).leavesWorkers shut (congrArg Books.running books)
      (congrArg Books.exchanges books)
  | chore chore => exact chore.leavesWorkers shut
  | @land w _ _ _ task => exact w.leavesWorkers_landed task shut
  | finish => exact World.leavesWorkers_finish shut
  | elsewhere stage change => exact change.leavesWorkers shut

theorem Later.leavesWorkers (later : Later m m') (shut : m.world.jobs.isOpen = false) :
    LeavesWorkers m.world m'.world := by
  induction later with
  | refl => exact keepsQueue_refl.leavesWorkers shut rfl rfl
  | tail _ last ih => exact ih.trans (last.leavesWorkers ih.shut)

/-! ## Nothing starts -/

/-- Whatever waits is dropped as the loop or the workers, or both at once, are shut down. -/
structure World.DropsWhatWaits (w : World) (origin : Origin) : Prop where
  loop : (w.closeLoop origin).sweep.tasks = ⟨[], false⟩
  workers : ((w.closeWorkers origin).record .shutDown).sweep.jobs = ⟨[], false⟩
  loopOfBoth : (w.shutDown origin).tasks = ⟨[], false⟩
  workersOfBoth : (w.shutDown origin).jobs = ⟨[], false⟩

theorem World.dropsWhatWaits (w : World) (origin : Origin) : w.DropsWhatWaits origin where
  loop := by
    have books : (w.closeLoop origin).sweep.books = _ := World.books_stopLoop
    exact congrArg Books.tasks books
  workers := by
    have books : ((w.closeWorkers origin).record .shutDown).sweep.books = _ :=
      World.books_stopWorkers
    exact congrArg Books.jobs books
  loopOfBoth := congrArg Books.tasks w.books_shutDown
  workersOfBoth := congrArg Books.jobs w.books_shutDown

/-- The loop is silent after a moment: it takes no task any more. -/
structure Moment.LoopIsSilent (m m' : Moment) : Prop where
  /-- It stays shut down. -/
  shut : m'.world.tasks.isOpen = false
  /-- Whatever is pushed from then on is refused.  Only the pushes that had found the loop up put
      their tasks into its queue, and what waits there, be it one of these, stays there or is
      dropped. -/
  refuses : m.RefusesPushes m'
  /-- Whatever has happened since is what the task that the loop was on could still do, or what
      needs no task at all; and of the operations that were accepted since, no handler was
      called. -/
  entries : ∃ new, m'.world.history = new ++ m.world.history ∧
    (∀ e ∈ new, m.stage.Allows e.event) ∧
    ∀ e ∈ new, ∀ a, e.event = .accepted a →
      ∀ e' ∈ new, ∀ kind tag result, e'.event ≠ .handled a.id kind tag result
  /-- What is outstanding on a handle is not given back, but for the operation of a delivery that
      had begun and not completed it. -/
  outstanding : ∀ (h : HandleId) (s : Handle), m.world.handles[h]? = some s →
    ∃ s', m'.world.handles[h]? = some s' ∧ s.outstanding ≤ s'.outstanding + m.stage.releases h

/-- The workers are silent after a moment: they take no job any more. -/
structure Moment.WorkersAreSilent (m m' : Moment) : Prop where
  /-- No job waits for them, whatever was accepted. -/
  queue : m'.world.jobs = ⟨[], false⟩
  submissions : m'.world.submissions = m.world.submissions
  takings : m'.world.takings = m.world.takings
  /-- Native calls are made only for the jobs that were with them. -/
  performed : ∃ new, m'.world.exchanges = new ++ m.world.exchanges ∧
    ∀ x ∈ new, ∃ job ∈ m.world.running, job.id = x.operation

/-- A run in which one write is on its way to the loop and another waits for a worker. -/
def writesUnderwayRun : Option World :=
  (World.start 1 ⟨[], []⟩).follow
    [.body 0 [
      .openFile 0 { write := true } .log (.memory (.bytes []) none {}),
      .write 0 (.bytes [1, 2, 3]) 0 ⟨"first", [], []⟩,
      .write 0 (.bytes [4, 5]) 3 ⟨"second", [], []⟩],
    .take, .answer 0 (.moved 3 []), .finish 0]

/-- A task of the loop has all shut down, and then writes once more. -/
def World.writesLate (w : World) : World :=
  (exec (Command.run [] (.write 0 (.bytes [6]) 5 ⟨"late", [], []⟩))
    ((w.entered ⟨0⟩ []).shutDown .loop)).2

/-- A task that somebody pushes meanwhile. -/
def lateTask : Task := .client ⟨1⟩ ⟨"late", [], []⟩

end PinnedFile
