/-
  PinnedFile.Proofs.Lifetime.Losses

  References that are lost.

  As long as the loop is up, references are lost in one way only: the native work of an
  operation panics, and what the operation held is left behind with it.
-/

import PinnedFile.Proofs.Lifetime.Runs
import PinnedFile.Proofs.Panics

namespace PinnedFile

open Run

variable {mode : Mode} {w middle after : World} {h k : HandleId} {job : Job}

/-! ## Code that loses nothing -/


/-- As long as the loop is up, no references are lost. -/
def LosesNothing (w after : World) : Prop :=
  after.tasks.isOpen = true → w.tasks.isOpen = true ∧ after.leaked = w.leaked

theorem losesNothing_refl : LosesNothing w w := fun isOpen => ⟨isOpen, rfl⟩

theorem LosesNothing.trans (first : LosesNothing w middle) (second : LosesNothing middle after) :
    LosesNothing w after := by
  intro isOpen
  obtain ⟨still, same⟩ := second isOpen
  obtain ⟨before, same'⟩ := first still
  exact ⟨before, same.trans same'⟩

instance : IsPreorder World LosesNothing where
  refl _ := losesNothing_refl
  trans _ _ _ first second := LosesNothing.trans first second

theorem losesNothing_of_same (tasks : after.tasks = w.tasks) (leaked : after.leaked = w.leaked) :
    LosesNothing w after := fun isOpen => ⟨tasks ▸ isOpen, leaked⟩

theorem losesNothing_sweep : LosesNothing w w.sweep :=
  World.sweep_induct losesNothing_refl fun _ before => before.trans (losesNothing_of_same rfl rfl)

theorem losesNothing_submit (job : Job) : LosesNothing w (w.submit job) := by
  unfold World.submit
  split
  · exact losesNothing_of_same rfl rfl
  · exact losesNothing_refl

theorem losesNothing_enqueue {t : Transfer} {c : Completion} :
    LosesNothing w (w.enqueue k t c) := by
  have accepted : LosesNothing w (w.accept k t c).2 := losesNothing_of_same rfl rfl
  exact accepted.trans (losesNothing_submit _)

theorem losesNothing_readingOn : LosesNothing w (w.readingOn k) := by
  rcases w.readingOn_cases k with same | ⟨stream, -, -, started⟩
  · rw [same]
    exact losesNothing_refl
  · have marked : LosesNothing w (w.modifyReader k ({ · with busy := true })) :=
      losesNothing_of_same rfl rfl
    rw [started]
    rcases w.startingRead_cases k stream with ⟨-, large⟩ | ⟨-, fits⟩
    · rwa [large]
    · rw [fits]
      exact marked.trans losesNothing_enqueue

theorem losesNothing_post {task : Task} : LosesNothing w (w.post task) :=
  fun isOpen => ⟨Queue.isOpen_push.symm.trans isOpen, rfl⟩

theorem losesNothing_setSlot {f : Slot} {entry : SlotEntry} :
    LosesNothing w (w.setSlot f entry) := by
  have replaced (slots : List (Slot × SlotEntry)) (remnants : List Remnant) :
      LosesNothing w { w with slots, remnants } := losesNothing_of_same rfl rfl
  exact (replaced _ _).trans losesNothing_sweep

theorem losesNothing_shutDown (origin : Origin) : LosesNothing w (w.shutDown origin) := by
  intro isOpen
  have shut : (w.shutDown origin).tasks.isOpen = false := World.sweep_induct
    (P := fun v => v.tasks.isOpen = false) rfl fun _ same => same
  rw [shut] at isOpen
  cases isOpen

theorem Move.losesNothing (move : Move w after) : LosesNothing w after := by
  cases move with
  | openMemory accepted | openBackend held accepted =>
    obtain ⟨owner, -, rfl⟩ := except_map_eq_ok.mp accepted
    exact (losesNothing_of_same rfl rfl).trans losesNothing_setSlot
  | openPath accepted =>
    obtain ⟨owner, descriptor, files, -, rfl⟩ := World.exists_openPath accepted
    exact (losesNothing_of_same rfl rfl).trans losesNothing_setSlot
  | keep | giveUp => exact losesNothing_setSlot
  | write accepted | flush accepted =>
    obtain ⟨s, -, rfl⟩ := except_map_eq_ok.mp accepted
    exact losesNothing_enqueue
  | read accepted =>
    obtain ⟨s, -, rfl⟩ := World.exists_read accepted
    exact losesNothing_enqueue
  | close accepted =>
    obtain ⟨s, -, rfl⟩ := except_map_eq_ok.mp accepted
    dsimp only
    split
    · exact (losesNothing_of_same rfl rfl).trans (losesNothing_submit _)
    · exact losesNothing_of_same rfl rfl
  | readStream f accepted | writeStream f accepted =>
    obtain ⟨s, -, rfl⟩ := except_map_eq_ok.mp accepted
    exact (losesNothing_of_same rfl rfl).trans losesNothing_setSlot
  | listen accepted | resume accepted paused =>
    obtain ⟨s, -, rfl⟩ := except_map_eq_ok.mp accepted
    exact (losesNothing_of_same rfl rfl).trans losesNothing_readingOn
  | clearData accepted | onEnd accepted | onReadFailure accepted | pause accepted
  | resumeFlowing accepted flowing | setQueueMax accepted | onWriteFailure accepted
  | awaitDrain accepted waits | drainAtOnce accepted drained =>
    obtain ⟨s, -, rfl⟩ := except_map_eq_ok.mp accepted
    exact losesNothing_of_same rfl rfl
  | setChunkSize accepted =>
    obtain ⟨s, -, -, rfl⟩ := World.exists_setChunkSize accepted
    exact losesNothing_of_same rfl rfl
  | send got accepted =>
    obtain ⟨s, -, rfl⟩ := except_map_eq_ok.mp accepted
    exact losesNothing_enqueue.trans (losesNothing_of_same rfl rfl)
  | hold | adjust | ran | panicking | drained | strand => exact losesNothing_of_same rfl rfl
  | execute => exact losesNothing_post
  | sweep => exact losesNothing_sweep
  | shutDown origin => exact losesNothing_shutDown origin

theorem Moves.losesNothing (moves : Moves w after) : LosesNothing w after := by
  induction moves with
  | refl => exact losesNothing_refl
  | tail _ last ih => exact ih.trans last.losesNothing

/-- What is told to the client is a mark on a handle, and an entry. -/
theorem losesNothing_told {outcome : Outcome} : LosesNothing w (w.told job outcome) := by
  have begun : LosesNothing w ((w.aboutToTell job).toldHandler job outcome) := by
    unfold World.toldHandler World.aboutToTell
    split <;> split <;> exact losesNothing_of_same rfl rfl
  refine begun.trans ?_
  obtain ⟨f, -, told | ⟨e, -, told⟩⟩ := World.callsAtMost_told w job outcome
  · rw [told]
    exact losesNothing_of_same rfl rfl
  · rw [told]
    exact losesNothing_of_same rfl rfl

theorem losesNothing_deliver {outcome : Outcome} :
    Leads LosesNothing (deliver job outcome) w := by
  by_cases here : w.OnOwner job.handle
  · rw [Leads, exec_deliver here]
    refine leads_bind (R := LosesNothing) ?_ fun _ _ _ => leads_bind ?_ fun _ _ _ => ?_
    · have completed : LosesNothing w (w.completing job outcome) := losesNothing_of_same rfl rfl
      rw [Leads, exec_announce]
      have told : Leads LosesNothing (tell job outcome) (w.completing job outcome) :=
        losesNothing_told.trans (Moves.losesNothing
          (moves_tell job outcome (World.onOwner_completing job outcome here)))
      refine completed.trans (leads_bind (R := LosesNothing) told fun _ v _ => ?_)
      have noted : LosesNothing v (v.record (.delivered job.id)) := losesNothing_of_same rfl rfl
      exact noted
    · rw [Leads, exec_readOn]
      unfold World.readsOn
      split
      · exact losesNothing_readingOn
      · exact losesNothing_refl
    · apply leads_get_bind
      split
      · exact leads_pure _
      · split
        · split
          · exact leads_pure _
          · exact leads_modify ((losesNothing_of_same rfl rfl).trans (losesNothing_submit _))
        · exact leads_pure _
  · apply leads_get_bind
    split
    · exact leads_pure _
    next unbound => exact absurd (World.unbind_eq_ok_iff.mp unbound) here

/-! ## Steps -/

theorem losesNothing_runOn {α : Type} {context : ContextId} {holds : List HandleId}
    {code : Run α} (leads : Leads LosesNothing code (w.entered context holds)) :
    LosesNothing w (w.runOn context holds code).2 := by
  have begun : LosesNothing w (w.entered context holds) := losesNothing_of_same rfl rfl
  obtain ⟨note, same⟩ := @World.exists_runOn w α context holds code
  rw [same]
  have left (v : World) : LosesNothing v { v with context := w.context, held := w.held }.sweep :=
    LosesNothing.trans (losesNothing_of_same rfl rfl) losesNothing_sweep
  exact ((begun.trans leads).trans (left _)).trans (losesNothing_of_same rfl rfl)

/-- As long as the loop is up, a step loses references only with an operation whose native work
    panics. -/
theorem Step.losesNothing_or_panics (step : Step mode w after) : LosesNothing w after ∨
    ∃ job call a, job ∈ w.running ∧ job.transfer.feed a = none ∧
      after.books = w.books.answer job call a ∧ after.tasks = w.tasks ∧
      after.leaked = job.holds ++ w.leaked := by
  cases step with
  | task runs =>
    obtain ⟨task, rest, next, rfl⟩ := World.exists_task_of_runTask runs
    have begun : LosesNothing w { w with tasks := rest } :=
      fun isOpen => ⟨(Queue.isOpen_pop next).trans isOpen, rfl⟩
    refine .inl (begun.trans (losesNothing_runOn ?_))
    cases task with
    | deliver job outcome => exact losesNothing_deliver
    | client context task =>
      exact leads_note_bind (losesNothing_of_same rfl rfl)
        (Moves.losesNothing (moves_runAll [] task.body _))
    | later context =>
      have noted {v : World} : LosesNothing v (v.record .later) := losesNothing_of_same rfl rfl
      exact noted
  | command context c => exact .inl (losesNothing_runOn (moves_command [] c _).losesNothing)
  | body context body => exact .inl (losesNothing_runOn (moves_runAll [] body _).losesNothing)
  | outside c => exact .inl (moves_command [] c w).losesNothing
  | post | postLater => exact .inl losesNothing_post
  | take takes =>
    obtain ⟨job, rest, -, rfl⟩ := World.exists_takeJob takes
    exact .inl (losesNothing_of_same rfl rfl)
  | @answer job call a files backends running makes calm =>
    rcases fed : job.transfer.feed a with _ | t
    · refine .inr ⟨job, call, a, running, fed, World.books_answer, ?_, ?_⟩
      · simp only [World.answer, fed]
        rfl
      · simp only [World.answer, fed]
        rfl
    · refine .inl (losesNothing_of_same ?_ ?_)
      · simp only [World.answer, fed]
        rfl
      · simp only [World.answer, fed]
        rfl
  | @finish job outcome running ended =>
    left
    unfold World.finish
    dsimp only
    split
    · exact (losesNothing_of_same rfl rfl).trans losesNothing_post
    next shut => exact fun isOpen => absurd isOpen shut
  | shutDown origin => exact .inl (losesNothing_shutDown origin)
  | freshContext | takePanic => exact .inl (losesNothing_of_same rfl rfl)

/-- An operation that held a handle was lost with a panic of its native work. -/
def World.IsLost (w : World) (h : HandleId) : Prop :=
  ∃ a ∈ w.accepted, w.books.HasPanicked a ∧ h ∈ a.holds

theorem Books.Turns.isLost {b b' : Books} {a : Job} (turns : Books.Turns mode b b')
    (sound : Books.Sound mode b) (lost : a ∈ b.accepted ∧ b.HasPanicked a) :
    a ∈ b'.accepted ∧ b'.HasPanicked a := by
  induction turns with
  | refl => exact lost
  | tail before last ih =>
    exact ⟨last.accepted_subset ih.1, last.hasPanicked (Books.Turns.sound before sound) ih.2⟩

/-- In every run, as long as the loop is up, references are lost only with operations whose
    native work has panicked. -/
theorem Reachable.isLost (reached : Reachable mode w) (isOpen : w.tasks.isOpen = true)
    (leaked : h ∈ w.leaked) : w.IsLost h := by
  suffices lost : w.tasks.isOpen = true → h ∈ w.leaked → w.IsLost h from lost isOpen leaked
  refine Reachable.induct (P := fun w => w.tasks.isOpen = true → h ∈ w.leaked → w.IsLost h)
    ?_ ?_ reached
  · intro workers files _ leaked
    cases leaked
  · intro w after reached ih step isOpen leaked
    have turns := step.turns_of_sound reached.sound
    have still (before : w.IsLost h) : after.IsLost h := by
      obtain ⟨a, accepted, panicked, holds⟩ := before
      obtain ⟨accepted', panicked'⟩ := turns.isLost reached.sound ⟨accepted, panicked⟩
      exact ⟨a, accepted', panicked', holds⟩
    rcases step.losesNothing_or_panics with nothing |
      ⟨job, call, a, running, panics, same, tasks, lost⟩
    · obtain ⟨before, unchanged⟩ := nothing isOpen
      exact still (ih before (unchanged ▸ leaked))
    · rw [lost] at leaked
      -- what is lost now was held by the operation that panics
      rcases List.mem_append.mp leaked with now | before
      · obtain ⟨first, accepted, ticket, panicked⟩ : ∃ first ∈ w.books.accepted,
            first.ticket = job.ticket ∧ (w.books.answer job call a).HasPanicked first :=
          reached.sound.hasPanicked_answer running panics
        refine ⟨first, ?_, by rw [same]; exact panicked, ?_⟩
        · show first ∈ after.books.accepted
          rw [same]
          exact accepted
        · have handle : first.handle = job.handle := congrArg Ticket.handle ticket
          have completion : first.completion = job.completion := congrArg Ticket.completion ticket
          rwa [Job.holds, handle, completion]
      · exact still (ih (tasks ▸ isOpen) before)

end PinnedFile
