/-
  PinnedFile.Proofs.SingleWorker.Submissions

  The queue of jobs and what the history tells of it.

  Operations are submitted at one end of the queue and taken at the other, and both are noted.
  Only three things change the queue: a submission, a worker that takes a job, and a shutdown.
  So whatever happens on the loop queues one job and notes it, or shuts the queue down, or
  leaves it as it is.
-/

import PinnedFile.Proofs.Deeds

namespace PinnedFile

open Run

namespace Event

/-- The operation that is put behind those that wait for a worker. -/
def submitted? : Event → Option OperationId
  | .submitted id => some id
  | _ => none

/-- The operation that a worker takes. -/
def taken? : Event → Option OperationId
  | .taken id => some id
  | _ => none

end Event

namespace World

/-- The operations that were submitted to the workers, the latest first. -/
def submissions (w : World) : List OperationId := w.history.filterMap (·.event.submitted?)

/-- The operations that a worker has taken, the latest first. -/
def takings (w : World) : List OperationId := w.history.filterMap (·.event.taken?)

end World

/-- What is done to the queue of jobs, and what is noted of it: nothing, one job is queued, or the
    queue is shut down.  A queue that is shut down takes nothing in. -/
inductive Queues (jobs : Queue Job) (submitted : List OperationId) :
    Queue Job → List OperationId → Prop where
  | nothing : Queues jobs submitted jobs submitted
  | job (job : Job) (isOpen : jobs.isOpen = true) :
      Queues jobs submitted (jobs.push job).2 (job.id :: submitted)
  | shutDown : Queues jobs submitted ⟨[], false⟩ submitted

namespace Queues

variable {jobs jobs' : Queue Job} {submitted submitted' : List OperationId}

/-- If the queue is what it was, nothing was submitted. -/
theorem of_same (queues : Queues jobs submitted jobs' submitted') (same : jobs' = jobs) :
    submitted' = submitted := by
  cases queues with
  | nothing | shutDown => rfl
  | job job isOpen =>
    have longer := congrArg (fun q : Queue Job => q.items.length) same
    simp [Queue.items_push isOpen] at longer

/-- If the queue has one more job, that was submitted. -/
theorem of_push {job : Job} (queues : Queues jobs submitted jobs' submitted')
    (pushed : jobs' = (jobs.push job).2) :
    (jobs.isOpen = false ∧ submitted' = submitted) ∨
      (jobs.isOpen = true ∧ submitted' = job.id :: submitted) := by
  rcases isOpen : jobs.isOpen with _ | _
  · rw [Queue.push_of_shut isOpen] at pushed
    exact .inl ⟨rfl, queues.of_same pushed⟩
  · right
    have items := congrArg Queue.items pushed
    rw [Queue.items_push isOpen] at items
    cases queues with
    | nothing =>
      have longer := congrArg List.length items
      simp at longer
    | job other isOpen =>
      rw [Queue.items_push isOpen] at items
      rw [List.singleton_inj.mp (List.append_cancel_left items)]
      exact ⟨rfl, rfl⟩
    | shutDown =>
      have longer := congrArg List.length items
      simp at longer

/-- If the queue was shut down, nothing was submitted. -/
theorem of_shutDown (queues : Queues jobs submitted jobs' submitted')
    (shut : jobs' = ⟨[], false⟩) : submitted' = submitted := by
  cases queues with
  | nothing | shutDown => rfl
  | job job isOpen =>
    have stays := congrArg Queue.isOpen shut
    rw [Queue.isOpen_push, isOpen] at stays
    cases stays

end Queues

/-! ## What leaves the queue as it is -/

/-- The queue of jobs is left as it is, and nothing is noted of it. -/
structure KeepsQueue (w after : World) : Prop where
  jobs : after.jobs = w.jobs
  submissions : after.submissions = w.submissions
  takings : after.takings = w.takings

/-- What is done to the queue of jobs on the loop is noted there. -/
structure NotesQueue (w after : World) : Prop where
  queues : Queues w.jobs w.submissions after.jobs after.submissions
  takings : after.takings = w.takings

variable {w middle after : World} {k : HandleId} {job : Job} {outcome : Outcome}

theorem keepsQueue_of_same (jobs : after.jobs = w.jobs) (history : after.history = w.history) :
    KeepsQueue w after :=
  ⟨jobs, by rw [World.submissions, history]; rfl, by rw [World.takings, history]; rfl⟩

theorem keepsQueue_refl : KeepsQueue w w := keepsQueue_of_same rfl rfl

theorem KeepsQueue.trans (first : KeepsQueue w middle) (second : KeepsQueue middle after) :
    KeepsQueue w after where
  jobs := second.jobs.trans first.jobs
  submissions := second.submissions.trans first.submissions
  takings := second.takings.trans first.takings

theorem keepsQueue_record {e : Event} (submitted : e.submitted? = none) (taken : e.taken? = none) :
    KeepsQueue w (w.record e) :=
  ⟨rfl, List.filterMap_cons_none submitted, List.filterMap_cons_none taken⟩

theorem keepsQueue_sweep : KeepsQueue w w.sweep :=
  keepsQueue_of_same (congrArg Books.jobs World.books_sweep) World.history_sweep

theorem KeepsQueue.notes (keeps : KeepsQueue w after) : NotesQueue w after := by
  refine ⟨?_, keeps.takings⟩
  rw [keeps.jobs, keeps.submissions]
  exact .nothing

theorem notesQueue_of_same (jobs : after.jobs = w.jobs) (history : after.history = w.history) :
    NotesQueue w after := (keepsQueue_of_same jobs history).notes

theorem KeepsQueue.then (keeps : KeepsQueue w middle) (notes : NotesQueue middle after) :
    NotesQueue w after := by
  have queues := notes.queues
  rw [keeps.jobs, keeps.submissions] at queues
  exact ⟨queues, notes.takings.trans keeps.takings⟩

theorem NotesQueue.then (notes : NotesQueue w middle) (keeps : KeepsQueue middle after) :
    NotesQueue w after := by
  refine ⟨?_, keeps.takings.trans notes.takings⟩
  rw [keeps.jobs, keeps.submissions]
  exact notes.queues

/-! ## What clients do -/

theorem notesQueue_submit (job : Job) : NotesQueue w (w.submit job) := by
  rcases isOpen : w.jobs.isOpen with _ | _
  · have same : w.submit job = w := by simp only [World.submit, Queue.push, isOpen]; rfl
    rw [same]
    exact keepsQueue_refl.notes
  · have same : w.submit job =
        { w with jobs := (w.jobs.push job).2 }.record (.submitted job.id) := by
      simp only [World.submit, Queue.push, isOpen]
      rfl
    rw [same]
    exact ⟨.job job isOpen, rfl⟩

theorem keepsQueue_accept {t : Transfer} {c : Completion} :
    KeepsQueue w (w.accept k t c).2 := ⟨rfl, rfl, rfl⟩

theorem notesQueue_enqueue {t : Transfer} {c : Completion} : NotesQueue w (w.enqueue k t c) :=
  keepsQueue_accept.then (notesQueue_submit _)

theorem notesQueue_readingOn : NotesQueue w (w.readingOn k) := by
  rcases w.readingOn_cases k with same | ⟨stream, -, -, started⟩
  · rw [same]
    exact keepsQueue_refl.notes
  · have marked : KeepsQueue w (w.modifyReader k ({ · with busy := true })) :=
      keepsQueue_of_same rfl rfl
    rw [started]
    rcases w.startingRead_cases k stream with ⟨-, large⟩ | ⟨-, fits⟩
    · rw [large]
      exact marked.notes
    · rw [fits]
      exact marked.then notesQueue_enqueue

theorem notesQueue_asked {f : Reader → Reader} :
    NotesQueue w ((w.modifyReader k f).readingOn k) := by
  have asked : KeepsQueue w (w.modifyReader k f) := keepsQueue_of_same rfl rfl
  exact asked.then notesQueue_readingOn

theorem keepsQueue_setSlot {f : Slot} {entry : SlotEntry} : KeepsQueue w (w.setSlot f entry) := by
  have replaced (slots : List (Slot × SlotEntry)) (remnants : List Remnant) :
      KeepsQueue w { w with slots, remnants } := keepsQueue_of_same rfl rfl
  exact (replaced _ _).trans keepsQueue_sweep

theorem KeepsQueue.addHandle {f : Slot} {owner : ContextId} {options : OpenOptions}
    {sink : Sink} {path : Bytes} {backend : BackendId} {native : Option BackendId}
    (before : KeepsQueue w middle) :
    KeepsQueue w (middle.addHandle f owner options sink path backend native) := by
  refine (before.trans ?_).trans keepsQueue_setSlot
  exact keepsQueue_of_same rfl rfl

theorem notesQueue_close {handler : Option (Callback Command)}
    (ok : w.close k handler = .ok after) : NotesQueue w after := by
  obtain ⟨s, -, rfl⟩ := except_map_eq_ok.mp ok
  have closed : KeepsQueue w ((w.accept k .close (.close (handler.map w.handler))).2.modifyHandle k
      ({ · with closed := true })) := ⟨rfl, rfl, rfl⟩
  dsimp only
  split
  · exact closed.then (notesQueue_submit _)
  · refine (closed.trans ?_).notes
    exact keepsQueue_of_same rfl rfl

theorem notesQueue_shutDown {origin : Origin} : NotesQueue w (w.shutDown origin) := by
  have jobs : (w.shutDown origin).jobs = ⟨[], false⟩ := congrArg Books.jobs World.books_shutDown
  have history : (w.shutDown origin).history = ⟨w.context, .shutDown, w.handles⟩ :: w.history :=
    World.history_sweep
  have submissions : (w.shutDown origin).submissions = w.submissions := by
    rw [World.submissions, history]
    rfl
  refine ⟨?_, ?_⟩
  · rw [jobs, submissions]
    exact .shutDown
  · rw [World.takings, history]
    rfl

/-- Whatever a client does to the queue of jobs is noted. -/
theorem Move.notesQueue (move : Move w after) : NotesQueue w after := by
  cases move with
  | openMemory accepted | openBackend held accepted =>
    obtain ⟨owner, -, rfl⟩ := except_map_eq_ok.mp accepted
    exact KeepsQueue.notes (KeepsQueue.addHandle (keepsQueue_of_same rfl rfl))
  | openPath accepted =>
    obtain ⟨owner, descriptor, files, -, rfl⟩ := World.exists_openPath accepted
    exact KeepsQueue.notes (KeepsQueue.addHandle (keepsQueue_of_same rfl rfl))
  | keep | giveUp => exact keepsQueue_setSlot.notes
  | write accepted | flush accepted =>
    obtain ⟨s, -, rfl⟩ := except_map_eq_ok.mp accepted
    exact notesQueue_enqueue
  | read accepted =>
    obtain ⟨s, -, rfl⟩ := World.exists_read accepted
    exact notesQueue_enqueue
  | close accepted => exact notesQueue_close accepted
  | readStream f accepted | writeStream f accepted =>
    obtain ⟨s, -, rfl⟩ := except_map_eq_ok.mp accepted
    refine (KeepsQueue.trans ?_ keepsQueue_setSlot).notes
    exact keepsQueue_of_same rfl rfl
  | listen accepted | resume accepted paused =>
    obtain ⟨s, -, rfl⟩ := except_map_eq_ok.mp accepted
    exact notesQueue_asked
  | clearData accepted | onEnd accepted | onReadFailure accepted | pause accepted
  | resumeFlowing accepted flowing | setQueueMax accepted | onWriteFailure accepted =>
    obtain ⟨s, -, rfl⟩ := except_map_eq_ok.mp accepted
    exact notesQueue_of_same rfl rfl
  | setChunkSize accepted =>
    obtain ⟨s, -, -, rfl⟩ := World.exists_setChunkSize accepted
    exact notesQueue_of_same rfl rfl
  | send got accepted =>
    obtain ⟨s, -, rfl⟩ := except_map_eq_ok.mp accepted
    exact notesQueue_enqueue.then (keepsQueue_of_same rfl rfl)
  | awaitDrain accepted waits =>
    obtain ⟨s, -, rfl⟩ := except_map_eq_ok.mp accepted
    exact KeepsQueue.notes ⟨rfl, rfl, rfl⟩
  | drainAtOnce accepted drained =>
    obtain ⟨s, -, rfl⟩ := except_map_eq_ok.mp accepted
    exact KeepsQueue.notes ⟨rfl, rfl, rfl⟩
  | drained => exact KeepsQueue.notes ⟨rfl, rfl, rfl⟩
  | hold | adjust | execute | strand => exact notesQueue_of_same rfl rfl
  | sweep => exact keepsQueue_sweep.notes
  | shutDown origin => exact notesQueue_shutDown
  | ran | panicking => exact (keepsQueue_record rfl rfl).notes

/-! ## What the loop does -/

/-- To tell of an outcome leaves the workers alone. -/
theorem keepsQueue_told (w : World) (job : Job) (outcome : Outcome) :
    KeepsQueue w (w.told job outcome) := by
  have about : KeepsQueue w (w.aboutToTell job) := by
    unfold World.aboutToTell
    split
    · exact keepsQueue_of_same rfl rfl
    · exact keepsQueue_refl
  have handled : KeepsQueue (w.aboutToTell job) ((w.aboutToTell job).toldHandler job outcome) := by
    unfold World.toldHandler
    split
    · exact keepsQueue_refl
    · exact keepsQueue_record rfl rfl
  refine (about.trans handled).trans ?_
  obtain ⟨f, -, told | ⟨e, called, told⟩⟩ := World.callsAtMost_told w job outcome
  · rw [told]
    exact keepsQueue_of_same rfl rfl
  · have aside : e.submitted? = none ∧ e.taken? = none := by
      cases e with
      | data | ended | failed | unheard | drained => exact ⟨rfl, rfl⟩
      | _ => cases called
    rw [told]
    refine KeepsQueue.trans ?_ (keepsQueue_record aside.1 aside.2)
    exact keepsQueue_of_same rfl rfl

theorem keepsQueue_starting (w : World) (task : Task) : KeepsQueue w (w.starting task) := by
  cases task with
  | deliver => exact keepsQueue_refl
  | client | later => exact keepsQueue_record rfl rfl

/-- Whatever is done to the queue of jobs on the loop is noted. -/
theorem Chore.notesQueue (chore : Chore w after) : NotesQueue w after := by
  cases chore with
  | move move => exact move.notesQueue
  | delivered id => exact (keepsQueue_record rfl rfl).notes
  | goOn here => exact notesQueue_readingOn
  | closeIfQuiet h =>
    -- one job is queued if a close was waiting and nothing else is on its way
    rw [Run.closeIfQuiet, exec_get_bind]
    split
    · exact keepsQueue_refl.notes
    · split
      · split
        · exact keepsQueue_refl.notes
        next job waits =>
          have taken : KeepsQueue w (w.modifyHandle h ({ · with pendingClose := none })) :=
            keepsQueue_of_same rfl rfl
          exact taken.then (notesQueue_submit job)
      · exact keepsQueue_refl.notes
  | post | switch => exact notesQueue_of_same rfl rfl

theorem Deed.notesQueue (deed : Deed w after) : NotesQueue w after := by
  cases deed with
  | chore chore => exact chore.notesQueue
  | start task => exact (keepsQueue_starting w task).notes
  | tell outcome here => exact (keepsQueue_told w _ outcome).notes

/-! ## What workers do with their jobs -/

theorem keepsQueue_answer {call : Call} {a : Answer} {files : FileTree} {backends : List Backend} :
    KeepsQueue w ({ w with files, backends }.answer job call a) := by
  refine ⟨congrArg Books.jobs World.books_answer, ?_, ?_⟩
  · rw [World.submissions, World.history_answer]
    rfl
  · rw [World.takings, World.history_answer]
    rfl

theorem keepsQueue_finish : KeepsQueue w (w.finish job outcome) :=
  keepsQueue_of_same (congrArg Books.jobs World.books_finish) World.history_finish

end PinnedFile
