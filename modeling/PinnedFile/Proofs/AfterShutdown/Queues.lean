/-
  PinnedFile.Proofs.AfterShutdown.Queues

  What becomes of the queues once they are shut down, on the books.

  A queue that is shut down takes nothing in, whatever clients and workers do, but for what a push
  brings that has found it open.  That of the workers knows no such pushes, and is empty.  Nothing
  is given back of what is outstanding on a handle, which only the delivery of an operation does,
  and operations are accepted under new numbers.
-/

import PinnedFile.Proofs.AfterShutdown.Moments

namespace PinnedFile

namespace Books

variable {b middle after : Books} {h : HandleId} {job : Job}

/-- The queue of the workers is empty once it is shut down, and whatever is on its way was
    accepted. -/
structure Orderly (b : Books) : Prop where
  jobs : b.jobs.isOpen = false → b.jobs = ⟨[], false⟩
  numbered : ∀ job ∈ b.underway, job.id < b.nextOperation

/-- Once it is shut down, the queue of the loop is left as it is, or what waits there is dropped. -/
def KeepsShut (before after : Queue Task) : Prop :=
  before.isOpen = false → after = before ∨ after = ⟨[], false⟩

/-- What counts as outstanding on a handle does not get less. -/
def KeepsOutstanding (before after : List Handle) : Prop :=
  ∀ (h : HandleId) (s : Handle), before[h]? = some s →
    ∃ s' : Handle, after[h]? = some s' ∧ s.outstanding ≤ s'.outstanding

/-- Operations are accepted under numbers from the next on. -/
structure Accepts (b after : Books) : Prop where
  next : b.nextOperation ≤ after.nextOperation
  accepted : ∃ new, after.accepted = new ++ b.accepted ∧ ∀ a ∈ new, b.nextOperation ≤ a.id

/-- A change that begins no task and takes no job: a queue that is shut down stays so, nothing
    that is outstanding is given back, and operations are accepted under new numbers. -/
structure LeavesShut (b after : Books) : Prop where
  tasks : KeepsShut b.tasks after.tasks
  jobs : b.jobs.isOpen = false → after.jobs.isOpen = false
  outstanding : KeepsOutstanding b.handles after.handles
  accepts : b.Accepts after

theorem keepsShut_refl {queue : Queue Task} : KeepsShut queue queue := fun _ => .inl rfl

theorem KeepsShut.isOpen {before after : Queue Task} (keeps : KeepsShut before after)
    (shut : before.isOpen = false) : after.isOpen = false := by
  rcases keeps shut with rfl | rfl
  · exact shut
  · rfl

theorem KeepsShut.trans {before middle after : Queue Task} (first : KeepsShut before middle)
    (second : KeepsShut middle after) : KeepsShut before after := by
  intro shut
  rcases first shut with rfl | rfl
  · exact second shut
  · rcases second rfl with rfl | rfl <;> exact .inr rfl

theorem keepsShut_push {queue : Queue Task} {task : Task} :
    KeepsShut queue (queue.push task).2 := fun shut => .inl (Queue.push_of_shut shut)

theorem keepsOutstanding_refl {handles : List Handle} : KeepsOutstanding handles handles :=
  fun _ s known => ⟨s, known, Nat.le_refl _⟩

theorem KeepsOutstanding.trans {handles handles' handles'' : List Handle}
    (first : KeepsOutstanding handles handles') (second : KeepsOutstanding handles' handles'') :
    KeepsOutstanding handles handles'' := by
  intro h s known
  obtain ⟨s', known', more⟩ := first h s known
  obtain ⟨s'', known'', more'⟩ := second h s' known'
  exact ⟨s'', known'', more.trans more'⟩

theorem keepsOutstanding_modify {handles : List Handle} {f : Handle → Handle}
    (more : ∀ s, s.outstanding ≤ (f s).outstanding) :
    KeepsOutstanding handles (handles.modify h f) := by
  intro k s known
  by_cases equal : h = k
  · exact ⟨f s, by simp [known, equal], more s⟩
  · exact ⟨s, by simp [known, equal], Nat.le_refl _⟩

theorem accepts_of_same (next : after.nextOperation = b.nextOperation)
    (accepted : after.accepted = b.accepted) : b.Accepts after :=
  ⟨next.ge, [], accepted, fun _ listed => absurd listed List.not_mem_nil⟩

theorem Accepts.trans (first : b.Accepts middle) (second : middle.Accepts after) :
    b.Accepts after := by
  obtain ⟨new, added, fresh⟩ := first.accepted
  obtain ⟨new', added', fresh'⟩ := second.accepted
  refine ⟨first.next.trans second.next, new' ++ new, by rw [added', added, List.append_assoc],
    fun a listed => ?_⟩
  rcases List.mem_append.mp listed with later | before
  · exact first.next.trans (fresh' a later)
  · exact fresh a before

theorem accepts_of_next (next : after.nextOperation = b.nextOperation + 1)
    (accepted : after.accepted = b.nextJob h t c :: b.accepted) : b.Accepts after := by
  refine ⟨by rw [next]; exact Nat.le_succ _, [b.nextJob h t c], accepted, fun a listed => ?_⟩
  rw [List.mem_singleton.mp listed]
  exact Nat.le_refl _

theorem leavesShut_of_same (tasks : after.tasks = b.tasks) (jobs : after.jobs = b.jobs)
    (handles : after.handles = b.handles) (next : after.nextOperation = b.nextOperation)
    (accepted : after.accepted = b.accepted) : b.LeavesShut after where
  tasks := by rw [tasks]; exact keepsShut_refl
  jobs := by rw [jobs]; exact id
  outstanding := by rw [handles]; exact keepsOutstanding_refl
  accepts := accepts_of_same next accepted

theorem LeavesShut.trans (first : b.LeavesShut middle) (second : middle.LeavesShut after) :
    b.LeavesShut after where
  tasks := first.tasks.trans second.tasks
  jobs shut := second.jobs (first.jobs shut)
  outstanding := first.outstanding.trans second.outstanding
  accepts := first.accepts.trans second.accepts

theorem Move.leavesShut (entry : Move b after) : b.LeavesShut after := by
  have counted {s : Handle} {c : Completion} : s.outstanding ≤ (s.taking c).outstanding :=
    Nat.le_add_right _ _
  cases entry with
  | accept admits fits plain =>
    exact ⟨keepsShut_refl, fun shut => Queue.isOpen_push.trans shut,
      keepsOutstanding_modify fun _ => counted, accepts_of_next rfl rfl⟩
  | close admits quiet =>
    refine ⟨keepsShut_refl, fun shut => Queue.isOpen_push.trans shut, ?_, accepts_of_next rfl rfl⟩
    exact (keepsOutstanding_modify fun _ => counted).trans
      (keepsOutstanding_modify fun _ => Nat.le_refl _)
  | closeLater admits busy =>
    refine ⟨keepsShut_refl, id, ?_, accepts_of_next rfl rfl⟩
    exact (keepsOutstanding_modify fun _ => counted).trans
      (keepsOutstanding_modify fun _ => Nat.le_refl _)
  | call => exact leavesShut_of_same rfl rfl rfl rfl rfl
  | «open» fresh here =>
    refine ⟨keepsShut_refl, id, fun h s known => ?_, accepts_of_same rfl rfl⟩
    have inside := (List.getElem?_eq_some_iff.mp known).1
    exact ⟨s, by rw [List.getElem?_append_left inside, known], Nat.le_refl _⟩
  | post plain =>
    exact ⟨keepsShut_push, id, keepsOutstanding_refl, accepts_of_same rfl rfl⟩
  | shutDown =>
    exact ⟨fun _ => .inr rfl, fun _ => rfl, keepsOutstanding_refl, accepts_of_same rfl rfl⟩

theorem Moves.leavesShut (entries : Moves b after) : b.LeavesShut after := by
  induction entries with
  | refl => exact leavesShut_of_same rfl rfl rfl rfl rfl
  | tail _ last ih => exact ih.trans last.leavesShut

theorem leavesShut_closeIfQuiet : b.LeavesShut (b.closeIfQuiet h) := by
  rcases closeIfQuiet_cases b h with ⟨same, -⟩ | ⟨s, job, -, -, -, same⟩
  · rw [same]
    exact leavesShut_of_same rfl rfl rfl rfl rfl
  · rw [same]
    exact ⟨keepsShut_refl, fun shut => Queue.isOpen_push.trans shut,
      keepsOutstanding_modify fun _ => Nat.le_refl _, accepts_of_same rfl rfl⟩

/-! ## What is on its way -/

theorem Orderly.of_underway (orderly : b.Orderly) (jobs : after.jobs = b.jobs)
    (next : b.nextOperation ≤ after.nextOperation)
    (underway : ∀ job ∈ after.underway, job ∈ b.underway ∨ job.id < after.nextOperation) :
    after.Orderly where
  jobs := by rw [jobs]; exact orderly.jobs
  numbered job there := by
    rcases underway job there with before | new
    · exact (orderly.numbered job before).trans_le next
    · exact new

/-- A job that is put behind the others is dropped if the workers are shut down. -/
theorem Orderly.submit (orderly : b.Orderly) (below : job.id < b.nextOperation) :
    (b.submit job).Orderly := by
  rcases isOpen : b.jobs.isOpen with _ | _
  · rwa [submit_of_shut isOpen]
  · refine ⟨fun shut => ?_, fun other there => ?_⟩
    · rw [show (b.submit job).jobs.isOpen = b.jobs.isOpen from Queue.isOpen_push, isOpen] at shut
      cases shut
    · rcases underway_submit there with rfl | before
      · exact below
      · exact orderly.numbered other before

/-- Whatever a task delivers that is put behind the others was accepted. -/
theorem Orderly.land {task : Task} (orderly : b.Orderly)
    (below : ∀ job, task.job? = some job → job.id < b.nextOperation) :
    { b with tasks := b.tasks.land task }.Orderly := by
  refine orderly.of_underway rfl (Nat.le_refl _) fun other there => ?_
  rcases mem_underway.mp there with queued | running | ⟨outcome, posted⟩ | ⟨s, listed, waits⟩
  · exact .inl (underway_of_queued queued)
  · exact .inl (underway_of_running running)
  · rcases List.mem_append.mp posted with before | new
    · exact .inl (underway_of_posted before)
    · refine .inr (below other ?_)
      rw [← List.mem_singleton.mp new]
      rfl
  · exact .inl (underway_of_waiting listed waits)

/-- A task that is pushed is put behind the others, or refused. -/
theorem Orderly.post {task : Task} (orderly : b.Orderly)
    (below : ∀ job, task.job? = some job → job.id < b.nextOperation) : (b.post task).Orderly := by
  rcases isOpen : b.tasks.isOpen with _ | _
  · rwa [Books.post, Queue.push_of_shut isOpen]
  · rw [Books.post, Queue.push_eq, if_pos isOpen]
    exact orderly.land below

theorem Orderly.accept {t : Transfer} {c : Completion} (orderly : b.Orderly) :
    (b.accept h t c).Orderly :=
  orderly.of_underway rfl (Nat.le_succ _) fun _ there =>
    .inl (underway_modify_same (b := b) (f := (·.taking c)) (fun _ => rfl) there)

theorem Orderly.modify {f : Handle → Handle} (orderly : b.Orderly)
    (waits : ∀ s job, b.handles[h]? = some s → (f s).pendingClose = some job →
      s.pendingClose = some job ∨ job.id < b.nextOperation) : (b.modify h f).Orderly :=
  orderly.of_underway rfl (Nat.le_refl _) fun job there => by
    rcases underway_modify there with before | ⟨s, known, waiting⟩
    · exact .inl before
    · rcases waits s job known waiting with same | new
      · exact .inl (underway_of_waiting (List.mem_of_getElem? known) same)
      · exact .inr new

theorem Move.orderly (entry : Move b after) (orderly : b.Orderly) : after.Orderly := by
  cases entry with
  | accept admits fits plain => exact orderly.accept.submit (Nat.lt_succ_self _)
  | @close h s handler admits quiet =>
    have closed := (orderly.accept (h := h) (t := .close) (c := .close handler)).modify (h := h)
      (f := ({ · with closed := true })) fun _ _ _ waits => .inl waits
    exact closed.submit (Nat.lt_succ_self _)
  | @closeLater h s handler admits busy =>
    -- the close that begins to wait is the operation that was accepted just now
    refine orderly.accept.modify fun s' job known waits => .inr ?_
    rw [← Option.some.inj waits]
    exact Nat.lt_succ_self _
  | call => exact orderly.of_underway rfl (Nat.le_refl _) fun _ => .inl
  | «open» fresh here =>
    refine orderly.of_underway rfl (Nat.le_refl _) fun job there => .inl ?_
    refine underway_of_places there (fun queued => underway_of_queued queued)
      (fun running => underway_of_running running) (fun _ posted => underway_of_posted posted)
      fun s listed waits => ?_
    rcases List.mem_append.mp listed with before | new
    · exact underway_of_waiting before waits
    · rw [List.mem_singleton.mp new, fresh.2.2.2] at waits
      cases waits
  | post plain =>
    refine orderly.post fun job delivers => ?_
    rw [plain] at delivers
    cases delivers
  | shutDown =>
    refine ⟨fun _ => rfl, fun job there => orderly.numbered job ?_⟩
    exact underway_of_places there (fun none => absurd none List.not_mem_nil)
      (fun running => underway_of_running running) (fun _ none => absurd none List.not_mem_nil)
      fun _ listed waits => underway_of_waiting listed waits

theorem Moves.orderly (entries : Moves b after) (orderly : b.Orderly) : after.Orderly := by
  induction entries with
  | refl => exact orderly
  | tail _ last ih => exact last.orderly ih

theorem Orderly.closeIfQuiet (orderly : b.Orderly) : (b.closeIfQuiet h).Orderly := by
  rcases closeIfQuiet_cases b h with ⟨same, -⟩ | ⟨s, job, known, -, waits, same⟩
  · rwa [same]
  · rw [same]
    have below := orderly.numbered job (underway_of_waiting (List.mem_of_getElem? known) waits)
    have taken := orderly.modify (h := h) (f := ({ · with pendingClose := none }))
      fun _ _ _ waits => by cases waits
    exact taken.submit below

end Books

/-! ## Chores and what happens elsewhere -/

variable {w after : World}

theorem Chore.orderly (chore : Chore w after) (orderly : w.books.Orderly) :
    after.books.Orderly := by
  rcases chore.books with ⟨context, same⟩ | entry | ⟨h, same⟩
  · rw [same]
    exact ⟨orderly.jobs, orderly.numbered⟩
  · exact entry.orderly orderly
  · rw [same]
    exact orderly.closeIfQuiet

theorem Chore.leavesShut (chore : Chore w after) : w.books.LeavesShut after.books := by
  rcases chore.books with ⟨context, same⟩ | entry | ⟨h, same⟩
  · rw [same]
    exact Books.leavesShut_of_same rfl rfl rfl rfl rfl
  · exact entry.leavesShut
  · rw [same]
    exact Books.leavesShut_closeIfQuiet

namespace World

/-- A push that comes to its end takes the job off its worker, if it hands one over. -/
theorem books_landed (task : Task) : (w.landed task).books =
    { (task.job?.map w.books.withoutJob).getD w.books with tasks := w.tasks.land task } := by
  rw [landed]
  cases task <;> rfl

theorem books_stopLoop {origin : Origin} :
    (w.closeLoop origin).sweep.books = { w.books with tasks := ⟨[], false⟩ } := books_sweep

theorem books_stopWorkers {origin : Origin} :
    ((w.closeWorkers origin).record .shutDown).sweep.books =
      { w.books with jobs := ⟨[], false⟩ } := by
  rw [books_sweep, books_record_aside ⟨rfl, rfl, rfl, rfl, rfl⟩]
  rfl

/-- Outside the loop a client makes the entries that it makes without a context. -/
theorem books_doneOutside (c : Command) : ∃ v, Books.Moves { w.books with context := none } v ∧
    (w.doneOutside c).books = { v with context := w.context } :=
  ⟨_, Moves.books (moves_command [] c { w with context := none }), rfl⟩

end World

/-- A worker that is done with a job, or goes on with it, puts no operation anywhere. -/
theorem Books.Orderly.withoutJob {b : Books} {job : Job} (orderly : b.Orderly) :
    (b.withoutJob job).Orderly :=
  orderly.of_underway rfl (Nat.le_refl _) fun _ there => .inl (underway_withoutJob there)

/-- A push that comes to its end puts an operation into the queue that was accepted. -/
theorem World.orderly_landed {task : Task} (orderly : w.books.Orderly)
    (below : ∀ job, task.job? = some job → job.id < w.nextOperation) :
    (w.landed task).books.Orderly := by
  rw [World.books_landed]
  rcases delivers : task.job? with _ | job
  · exact orderly.land below
  · exact orderly.withoutJob.land below

/-- A push that comes to its end gives nothing back, whatever it brings. -/
theorem World.keepsOutstanding_landed (task : Task) :
    Books.KeepsOutstanding w.books.handles (w.landed task).books.handles := by
  rw [World.books_landed]
  rcases task.job? with _ | job <;> exact Books.keepsOutstanding_refl

theorem World.accepts_landed (task : Task) : w.books.Accepts (w.landed task).books := by
  rw [World.books_landed]
  rcases task.job? with _ | job <;> exact Books.accepts_of_same rfl rfl

/-- A worker that hands a job over is done with it, whether or not it finds the loop up. -/
theorem World.orderly_finish {job : Job} {outcome : Outcome} (orderly : w.books.Orderly)
    (running : job ∈ w.running) : (w.finish job outcome).books.Orderly := by
  rw [World.books_finish]
  refine orderly.withoutJob.post fun job delivers => ?_
  rw [← Option.some.inj delivers]
  exact orderly.numbered _ (Books.underway_of_running running)

theorem World.leavesShut_finish (w : World) (job : Job) (outcome : Outcome) :
    w.books.LeavesShut (w.finish job outcome).books := by
  rw [World.books_finish]
  exact ⟨Books.keepsShut_push, id, Books.keepsOutstanding_refl, Books.accepts_of_same rfl rfl⟩

theorem Elsewhere.orderly (change : Elsewhere w after) (orderly : w.books.Orderly) :
    after.books.Orderly := by
  cases change with
  | outside c =>
    obtain ⟨v, entries, same⟩ := w.books_doneOutside c
    obtain ⟨jobs, numbered⟩ := entries.orderly ⟨orderly.jobs, orderly.numbered⟩
    rw [same]
    exact ⟨jobs, numbered⟩
  | freshContext | takePanic => exact orderly
  | take takes =>
    obtain ⟨job, rest, next, -, same⟩ := World.books_takeJob takes
    obtain ⟨items, isOpen⟩ := Queue.pop_eq_some_iff.mp next
    rw [same]
    refine ⟨fun shut => ?_, fun other there => orderly.numbered other ?_⟩
    · -- a queue that gave a job was open, and is so still
      rw [show rest.isOpen = false from shut] at isOpen
      cases isOpen
    · refine Books.underway_of_places there (fun queued => ?_) (fun running => ?_)
        (fun _ posted => Books.underway_of_posted posted)
        fun _ listed waits => Books.underway_of_waiting listed waits
      · refine Books.underway_of_queued ?_
        rw [items]
        exact List.mem_cons_of_mem _ queued
      · rcases List.mem_append.mp running with before | new
        · exact Books.underway_of_running before
        · rw [List.mem_singleton.mp new]
          exact Books.underway_of_queued (Queue.mem_of_pop next)
  | @answer job call a files backends running makes =>
    rw [World.books_answer]
    have left : (w.books.withoutJob job).Orderly := orderly.withoutJob
    refine left.of_underway rfl (Nat.le_refl _) fun other there => ?_
    rcases Books.mem_underway.mp there with queued | here | ⟨outcome, posted⟩ | ⟨s, listed, waits⟩
    · exact .inl (Books.underway_of_queued queued)
    · rcases List.mem_append.mp here with left | goes_on
      · exact .inl (Books.underway_of_running left)
      · -- the job goes on with its next call, under the number that it had
        obtain ⟨t, -, rfl⟩ := List.mem_map.mp goes_on
        exact .inr (orderly.numbered job (Books.underway_of_running running))
    · exact .inl (Books.underway_of_posted posted)
    · exact .inl (Books.underway_of_waiting listed waits)
  | haltLoop => exact ⟨orderly.jobs, orderly.numbered⟩
  | stopLoop origin =>
    rw [World.books_stopLoop]
    refine ⟨orderly.jobs, fun other there => orderly.numbered other ?_⟩
    exact Books.underway_of_places there (fun queued => Books.underway_of_queued queued)
      (fun running => Books.underway_of_running running)
      (fun _ none => absurd none List.not_mem_nil)
      fun _ listed waits => Books.underway_of_waiting listed waits
  | stopWorkers origin shut =>
    rw [World.books_stopWorkers]
    refine ⟨fun _ => rfl, fun other there => orderly.numbered other ?_⟩
    exact Books.underway_of_places there (fun none => absurd none List.not_mem_nil)
      (fun running => Books.underway_of_running running)
      (fun _ posted => Books.underway_of_posted posted)
      fun _ listed waits => Books.underway_of_waiting listed waits
  | shutDown origin =>
    rw [World.books_shutDown]
    exact Books.Move.orderly .shutDown orderly

theorem Elsewhere.leavesShut (change : Elsewhere w after) : w.books.LeavesShut after.books := by
  cases change with
  | outside c =>
    obtain ⟨v, entries, same⟩ := w.books_doneOutside c
    obtain ⟨tasks, jobs, outstanding, accepts⟩ := entries.leavesShut
    rw [same]
    exact ⟨tasks, jobs, outstanding, ⟨accepts.next, accepts.accepted⟩⟩
  | freshContext | takePanic => exact Books.leavesShut_of_same rfl rfl rfl rfl rfl
  | take takes =>
    obtain ⟨job, rest, next, -, same⟩ := World.books_takeJob takes
    rw [same]
    refine ⟨Books.keepsShut_refl, fun shut => ?_, Books.keepsOutstanding_refl,
      Books.accepts_of_same rfl rfl⟩
    rw [(Queue.pop_eq_some_iff.mp next).1] at shut
    cases shut
  | answer a files backends running makes =>
    rw [World.books_answer]
    exact Books.leavesShut_of_same rfl rfl rfl rfl rfl
  | haltLoop =>
    -- a loop that is shut down is marked so already
    refine ⟨fun shut => .inl ?_, id, Books.keepsOutstanding_refl, Books.accepts_of_same rfl rfl⟩
    exact Queue.close_of_shut shut
  | stopLoop origin =>
    rw [World.books_stopLoop]
    exact ⟨fun _ => .inr rfl, id, Books.keepsOutstanding_refl, Books.accepts_of_same rfl rfl⟩
  | stopWorkers origin shut =>
    rw [World.books_stopWorkers]
    exact ⟨Books.keepsShut_refl, fun _ => rfl, Books.keepsOutstanding_refl,
      Books.accepts_of_same rfl rfl⟩
  | shutDown origin =>
    rw [World.books_shutDown]
    exact Books.Move.leavesShut .shutDown

end PinnedFile
