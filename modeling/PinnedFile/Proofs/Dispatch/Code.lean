/-
  PinnedFile.Proofs.Dispatch.Code

  What code does to the queues.

  The code of a task pushes tasks and jobs, and it may shut both queues down.  It hands nothing
  out, it takes no job from a worker, and it does not touch the panic that is kept; that is for the
  loop and the workers.  Every move is of this kind, so all code of clients is, and so is a
  delivery, however it ends.
-/

import PinnedFile.Proofs.Dispatch.Record
import PinnedFile.Proofs.Lifetime.Runs

namespace PinnedFile

open Run

/-- Both queues are pushed into or shut down, and nothing else happens to what they dispatch. -/
structure Adds (w after : World) : Prop where
  tasks : w.tasks.Serves [] after.tasks
  jobs : w.jobs.Serves [] after.jobs
  running : after.running = w.running
  workers : after.workers = w.workers
  panicNote : after.panicNote = w.panicNote

variable {w middle after : World} {k : HandleId} {job : Job} {outcome : Outcome}

/-! ## Parts of moves -/

theorem adds_of_same (tasks : after.tasks = w.tasks) (jobs : after.jobs = w.jobs)
    (running : after.running = w.running) (workers : after.workers = w.workers)
    (panicNote : after.panicNote = w.panicNote) : Adds w after where
  tasks := by rw [tasks]; exact Queue.serves_refl _
  jobs := by rw [jobs]; exact Queue.serves_refl _
  running := running
  workers := workers
  panicNote := panicNote

theorem adds_refl : Adds w w := adds_of_same rfl rfl rfl rfl rfl

theorem Adds.trans (first : Adds w middle) (second : Adds middle after) : Adds w after where
  tasks := first.tasks.trans second.tasks
  jobs := first.jobs.trans second.jobs
  running := second.running.trans first.running
  workers := second.workers.trans first.workers
  panicNote := second.panicNote.trans first.panicNote

instance : IsPreorder World Adds where
  refl _ := adds_refl
  trans _ _ _ first second := Adds.trans first second

theorem adds_record (e : Event) : Adds w (w.record e) := adds_of_same rfl rfl rfl rfl rfl

theorem adds_modifyHandle (f : Handle → Handle) : Adds w (w.modifyHandle k f) :=
  adds_of_same rfl rfl rfl rfl rfl

theorem adds_sweep : Adds w w.sweep :=
  World.sweep_induct adds_refl fun _ before => before.trans (adds_of_same rfl rfl rfl rfl rfl)

theorem adds_setSlot {f : Slot} {entry : SlotEntry} : Adds w (w.setSlot f entry) := by
  have replaced (slots : List (Slot × SlotEntry)) (remnants : List Remnant) :
      Adds w { w with slots, remnants } := adds_of_same rfl rfl rfl rfl rfl
  exact (replaced _ _).trans adds_sweep

theorem adds_post (task : Task) : Adds w (w.post task) :=
  ⟨Queue.serves_push _ _, Queue.serves_refl _, rfl, rfl, rfl⟩

theorem adds_submit (job : Job) : Adds w (w.submit job) := by
  unfold World.submit
  have pushed := Queue.serves_push w.jobs job
  split
  next jobs accepted =>
    rw [accepted] at pushed
    exact ⟨Queue.serves_refl _, pushed, rfl, rfl, rfl⟩
  · exact adds_refl

theorem adds_enqueue {t : Transfer} {c : Completion} : Adds w (w.enqueue k t c) := by
  have accepted : Adds w (w.accept k t c).2 := adds_of_same rfl rfl rfl rfl rfl
  exact accepted.trans (adds_submit _)

theorem adds_readingOn : Adds w (w.readingOn k) := by
  rcases w.readingOn_cases k with same | ⟨stream, -, -, started⟩
  · rw [same]
    exact adds_refl
  · have marked : Adds w (w.modifyReader k ({ · with busy := true })) := adds_modifyHandle _
    rw [started]
    rcases w.startingRead_cases k stream with ⟨-, large⟩ | ⟨-, fits⟩
    · rwa [large]
    · rw [fits]
      exact marked.trans adds_enqueue

theorem adds_shutDown (origin : Origin) : Adds w (w.shutDown origin) := by
  unfold World.shutDown
  refine Adds.trans ?_ adds_sweep
  exact ⟨Queue.serves_shutDown _, Queue.serves_shutDown _, rfl, rfl, rfl⟩

/-! ## The code of a client -/

theorem Move.adds (move : Move w after) : Adds w after := by
  cases move with
  | openMemory accepted | openBackend held accepted =>
    obtain ⟨s, -, rfl⟩ := except_map_eq_ok.mp accepted
    refine Adds.trans ?_ adds_setSlot
    exact adds_of_same rfl rfl rfl rfl rfl
  | openPath accepted =>
    obtain ⟨owner, descriptor, files, -, rfl⟩ := World.exists_openPath accepted
    refine Adds.trans ?_ adds_setSlot
    exact adds_of_same rfl rfl rfl rfl rfl
  | keep | giveUp => exact adds_setSlot
  | write accepted | flush accepted =>
    obtain ⟨s, -, rfl⟩ := except_map_eq_ok.mp accepted
    exact adds_enqueue
  | read accepted =>
    obtain ⟨s, -, rfl⟩ := World.exists_read accepted
    exact adds_enqueue
  | close accepted =>
    obtain ⟨s, -, rfl⟩ := except_map_eq_ok.mp accepted
    dsimp only
    -- a close is queued at once, or it waits with the handle
    split
    · refine Adds.trans ?_ (adds_submit _)
      exact adds_of_same rfl rfl rfl rfl rfl
    · exact adds_of_same rfl rfl rfl rfl rfl
  | readStream f accepted | writeStream f accepted =>
    obtain ⟨s, -, rfl⟩ := except_map_eq_ok.mp accepted
    refine Adds.trans ?_ adds_setSlot
    exact adds_of_same rfl rfl rfl rfl rfl
  | listen accepted | resume accepted paused =>
    obtain ⟨s, -, rfl⟩ := except_map_eq_ok.mp accepted
    refine Adds.trans ?_ adds_readingOn
    exact adds_of_same rfl rfl rfl rfl rfl
  | clearData accepted | onEnd accepted | onReadFailure accepted | pause accepted
  | resumeFlowing accepted flowing | setQueueMax accepted | onWriteFailure accepted
  | awaitDrain accepted waits | drainAtOnce accepted drained =>
    obtain ⟨s, -, rfl⟩ := except_map_eq_ok.mp accepted
    exact adds_of_same rfl rfl rfl rfl rfl
  | setChunkSize accepted =>
    obtain ⟨s, -, -, rfl⟩ := World.exists_setChunkSize accepted
    exact adds_modifyHandle _
  | send got accepted =>
    obtain ⟨s, -, rfl⟩ := except_map_eq_ok.mp accepted
    exact adds_enqueue.trans (adds_of_same rfl rfl rfl rfl rfl)
  | hold | adjust | drained | strand => exact adds_of_same rfl rfl rfl rfl rfl
  | ran | panicking => exact adds_record _
  | execute => exact adds_post _
  | sweep => exact adds_sweep
  | shutDown origin => exact adds_shutDown origin

theorem Moves.adds (moves : Moves w after) : Adds w after := by
  induction moves with
  | refl => exact adds_refl
  | tail _ last ih => exact ih.trans last.adds

/-! ## Deliveries -/

/-- What is told to the client is a mark on a handle, and an entry. -/
theorem adds_told : Adds w (w.told job outcome) := by
  have begun : Adds w ((w.aboutToTell job).toldHandler job outcome) := by
    unfold World.toldHandler World.aboutToTell
    split <;> split <;> exact adds_of_same rfl rfl rfl rfl rfl
  refine begun.trans ?_
  obtain ⟨f, -, told | ⟨e, -, told⟩⟩ := World.callsAtMost_told w job outcome
  · rw [told]
    exact adds_modifyHandle f
  · rw [told]
    exact (adds_modifyHandle f).trans (adds_record e)

theorem adds_closeIfQuiet : Leads Adds (closeIfQuiet k) w := by
  apply leads_get_bind
  split
  · exact leads_pure _
  · split
    · split
      · exact leads_pure _
      next job waits => exact leads_modify ((adds_modifyHandle _).trans (adds_submit job))
    · exact leads_pure _

/-- A delivery adds to the queues, also if a callback panics in it. -/
theorem adds_deliver : Leads Adds (deliver job outcome) w := by
  by_cases here : w.OnOwner job.handle
  · rw [Leads, exec_deliver here]
    refine leads_bind (R := Adds) ?_ fun _ _ _ => leads_bind ?_ fun _ _ _ => adds_closeIfQuiet
    · have completed : Adds w (w.completing job outcome) :=
        (adds_modifyHandle _).trans (adds_record _)
      rw [Leads, exec_announce]
      have told : Leads Adds (tell job outcome) (w.completing job outcome) :=
        adds_told.trans (Moves.adds
          (moves_tell job outcome (World.onOwner_completing job outcome here)))
      exact completed.trans (leads_bind (R := Adds) told fun _ v _ => adds_record _)
    · rw [Leads, exec_readOn]
      unfold World.readsOn
      split
      · exact adds_readingOn
      · exact adds_refl
  · -- elsewhere a delivery stops before it has done anything
    apply leads_get_bind
    split
    · exact leads_pure _
    next unbound => exact absurd (World.unbind_eq_ok_iff.mp unbound) here

/-- Whatever task the loop runs, its code adds to the queues. -/
theorem adds_taskCode (task : Task) : Leads Adds (World.taskCode task) w := by
  cases task with
  | deliver job outcome => exact adds_deliver
  | client context task => exact leads_note_bind (adds_record _) (moves_runAll [] task.body _).adds
  | later context => exact adds_record _

/-! ## Tasks -/

namespace World

/-- The text of the panic that ends a task, if one does. -/
def panicOf {α : Type} (w : World) (context : ContextId) (holds : List HandleId)
    (code : Run α) : Option String :=
  match (exec code (w.entered context holds)).1 with
  | .ok _ => none
  | .error message => some message

/-- A task adds to the queues, and its panic is kept unless another one is kept already. -/
theorem exists_runOn_adds {α : Type} {context : ContextId} {holds : List HandleId} {code : Run α}
    (leads : Leads Adds code (w.entered context holds)) : ∃ v, Adds w v ∧
      (w.runOn context holds code).2 =
        { v with panicNote := w.panicNote.or (w.panicOf context holds code) } := by
  have begun : Adds w (w.entered context holds) := adds_of_same rfl rfl rfl rfl rfl
  have ended (v : World) : Adds v { v with context := w.context, held := w.held }.sweep := by
    refine Adds.trans ?_ adds_sweep
    exact adds_of_same rfl rfl rfl rfl rfl
  have adds := (begun.trans leads).trans (ended _)
  have kept := adds.panicNote
  refine ⟨_, adds, ?_⟩
  unfold runOn panicOf
  rcases ends : code.run.run { w with context := some context, held := holds } with
    ⟨message | a, after⟩
  · have same : exec code (w.entered context holds) = (.error message, after) := ends
    rw [same] at kept ⊢
    -- the first panic is kept, and a later one is not
    show World.notePanic _ message = _
    rw [notePanic, kept]
    cases w.panicNote <;> rfl
  · have same : exec code (w.entered context holds) = (.ok a, after) := ends
    rw [same] at kept ⊢
    show _ = ({ World.sweep _ with panicNote := w.panicNote.or none } : World)
    rw [Option.or_none, ← kept]

end World

end PinnedFile
