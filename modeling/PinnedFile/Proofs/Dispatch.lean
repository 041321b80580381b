/-
  PinnedFile.Proofs.Dispatch

  The discipline of the queues, the loop and the workers.

  A queue hands out what it accepted, in order, until it is shut down.  The loop and the workers
  take what their queues hand out, and a panic ends a task or a job and nothing else: the loop goes
  on with the next task, and the worker is free for the next job.  The loop keeps the first panic
  until it is asked for.
-/

import PinnedFile.Proofs.Dispatch.Happenings

namespace PinnedFile

open Run

variable {w v after : World} {log : Log} {run : List Happening} {job : Job}

/-- Nothing waits for a loop, or for workers, that are shut down. -/
theorem Reachable.isTidy (reached : Reachable .any w) : w.tasks.IsTidy ∧ w.jobs.IsTidy := by
  obtain ⟨workers, files, steps⟩ := reached
  obtain ⟨run, log, watched⟩ := steps_iff_watch.mp steps
  have accounts := World.accounts_of_watch watched
  exact ⟨accounts.tasks.isTidy (Queue.isTidy_of_open rfl),
    accounts.jobs.isTidy (Queue.isTidy_of_open rfl)⟩

/-! ## The loop goes on -/

namespace World

/-- The loop can take the oldest of the tasks, whatever it ran before. -/
theorem exists_runTask {task : Task} {rest : List Task} (isOpen : w.tasks.isOpen = true)
    (waits : w.tasks.items = task :: rest) :
    ∃ after, w.undergo .task = some after ∧ w.ranBy .task = some task := by
  have next := Queue.pop_of_open isOpen waits
  refine ⟨(({ w with tasks := ⟨rest, true⟩ } : World).runOn (w.taskContext task) (taskHolds task)
    (taskCode task)).2, ?_, ?_⟩
  · rw [undergo, runTask, next]
  · rw [ranBy, next]
    rfl

/-- Task after task the loop runs what waits, unless a task shuts it down. -/
theorem exists_drain (tidy : w.tasks.IsTidy) {k : Nat} (within : k ≤ w.tasks.items.length) :
    ∃ n log v, n ≤ k ∧ w.watch (List.replicate n .task) = some (log, v) ∧
      log.ran = w.tasks.items.take n ∧ (n = k ∨ v.tasks.isOpen = false) := by
  induction k with
  | zero => exact ⟨0, _, w, Nat.le_refl 0, rfl, rfl, .inl rfl⟩
  | succ k ih =>
    obtain ⟨n, log, v, small, watched, ran, ended⟩ := ih (Nat.le_of_succ_le within)
    -- a task may have shut the loop down, and then the others are dropped
    rcases isOpen : v.tasks.isOpen with _ | _
    · exact ⟨n, log, v, Nat.le_succ_of_le small, watched, ran, .inr isOpen⟩
    rcases ended with rfl | shut
    · -- what is left of the tasks is in front of those that came meanwhile
      have kept := (accounts_of_watch watched).tasks.items tidy isOpen
      have here := List.drop_eq_getElem_cons (Nat.lt_of_succ_le within)
      rw [ran] at kept
      nth_rewrite 1 [← List.take_append_drop n w.tasks.items] at kept
      rw [List.prefix_append_right_inj, here] at kept
      obtain ⟨more, waits⟩ := kept
      obtain ⟨after, happens, taken⟩ := exists_runTask isOpen waits.symm
      refine ⟨n + 1, log.next v .task, after, Nat.le_refl _, ?_, ?_, .inl rfl⟩
      · rw [List.replicate_succ']
        exact watch_concat watched happens
      · rw [Log.ran_next, taken, ran, List.take_add_one,
          List.getElem?_eq_getElem (Nat.lt_of_succ_le within)]
    · rw [isOpen] at shut
      cases shut

/-! ## The workers go on -/

/-- A free worker can take the oldest of the jobs, whatever became of those before. -/
theorem exists_take {rest : List Job} (isOpen : w.jobs.isOpen = true)
    (waits : w.jobs.items = job :: rest) (free : w.running.length < w.workers) :
    ∃ after, w.undergo .take = some after ∧ w.takenBy .take = some job ∧
      after.jobs = ⟨rest, true⟩ ∧ after.workers = w.workers := by
  have next := Queue.pop_of_open isOpen waits
  refine ⟨({ w with jobs := ⟨rest, true⟩, running := w.running ++ [job] } : World).record
    (.taken job.id), ?_, ?_, rfl, rfl⟩
  · rw [undergo, takeJob, if_pos free, next]
  · rw [takenBy, next]
    rfl

end World

/-- What workers do if each native call that they make panics. -/
def Happening.IsHarsh : Happening → Prop
  | .take | .finish _ | .answer _ (.panicked _) _ _ => True
  | _ => False

namespace World

/-- A worker is rid of its job at once, if need be by a panic. -/
theorem exists_rid {rest : List Job} (running : w.running = job :: rest) :
    ∃ h after, h.IsHarsh ∧ w.undergo h = some after ∧ w.takenBy h = none ∧
      after.running = rest ∧ after.jobs = w.jobs ∧ after.workers = w.workers := by
  have without : (w.withoutJob job).running = rest := by simp [withoutJob, running]
  have there : w.running[0]? = some job := by rw [running]; rfl
  -- a job that makes no further call has come to its end
  rcases makes : job.transfer.call? with _ | call
  · obtain ⟨outcome, ended⟩ := job.transfer.call?_eq_none_iff.mp makes
    refine ⟨.finish 0, w.finish job outcome, trivial, undergo_finish there ended, rfl, ?_⟩
    unfold finish
    dsimp only
    split <;> exact ⟨without, rfl, rfl⟩
  · exact ⟨.answer 0 (.panicked "") w.files w.backends, w.answer job call (.panicked ""), trivial,
      undergo_answer (.panicked "") w.files w.backends there makes, rfl, without, rfl, rfl⟩

/-- So the workers can be rid of all their jobs. -/
theorem exists_idle (harsh : ∀ h ∈ run, h.IsHarsh) (watched : w.watch run = some (log, v)) :
    ∃ run' log' v', (∀ h ∈ run', h.IsHarsh) ∧ w.watch run' = some (log', v') ∧
      v'.running = [] ∧ v'.jobs = v.jobs ∧ v'.workers = v.workers ∧ log'.taken = log.taken := by
  generalize running : v.running = jobs
  induction jobs generalizing run log v with
  | nil => exact ⟨run, log, v, harsh, watched, running, rfl, rfl, rfl⟩
  | cons job rest ih =>
    obtain ⟨h, after, isHarsh, happens, none, left, jobs, workers⟩ := exists_rid running
    have more : ∀ h' ∈ run ++ [h], h'.IsHarsh :=
      List.forall_mem_append.mpr ⟨harsh, List.forall_mem_singleton.mpr isHarsh⟩
    obtain ⟨run', log', v', harsh', watched', idle, jobs', workers', taken⟩ :=
      ih more (watch_concat watched happens) left
    refine ⟨run', log', v', harsh', watched', idle, jobs'.trans jobs, workers'.trans workers, ?_⟩
    rw [taken, Log.taken_next, none]
    exact List.append_nil _

/-- Even if each native call panics, the workers take all the jobs that wait. -/
theorem exists_takes (tidy : w.jobs.IsTidy) (manned : 0 < w.workers) {k : Nat}
    (within : k ≤ w.jobs.items.length) : ∃ run log v, (∀ h ∈ run, h.IsHarsh) ∧
      w.watch run = some (log, v) ∧ log.taken = w.jobs.items.take k ∧
      v.jobs = ⟨w.jobs.items.drop k, w.jobs.isOpen⟩ ∧ v.workers = w.workers := by
  induction k with
  | zero => exact ⟨[], _, w, nofun, rfl, rfl, rfl, rfl⟩
  | succ k ih =>
    obtain ⟨run, log, v, harsh, watched, taken, left, workers⟩ := ih (Nat.le_of_succ_le within)
    have here := List.drop_eq_getElem_cons (Nat.lt_of_succ_le within)
    -- before each job that is taken, the worker is rid of the one before
    obtain ⟨run', log', v', harsh', watched', idle, jobs', workers', taken'⟩ :=
      exists_idle harsh watched
    have waits : v'.jobs.items = w.jobs.items[k] :: w.jobs.items.drop (k + 1) := by
      rw [jobs', left]
      exact here
    have isOpen : w.jobs.isOpen = true :=
      tidy.isOpen_of_waits (List.cons_head_tail (List.ne_nil_of_length_pos (by omega))).symm
    have stays : v'.jobs.isOpen = true := by rw [jobs', left]; exact isOpen
    have free : v'.running.length < v'.workers := by rw [idle, workers', workers]; exact manned
    obtain ⟨after, happens, takes, jobs, same⟩ := exists_take stays waits free
    refine ⟨run' ++ [.take], log'.next v' .take, after, ?_, watch_concat watched' happens, ?_, ?_,
      same.trans (workers'.trans workers)⟩
    · exact List.forall_mem_append.mpr ⟨harsh', List.forall_mem_singleton.mpr trivial⟩
    · rw [Log.taken_next, takes, taken', taken, List.take_add_one,
        List.getElem?_eq_getElem (Nat.lt_of_succ_le within)]
    · rw [jobs, isOpen]

end World

/-! ## The discipline -/

/-- What the loop and the workers promise on the way from one moment of a run to another. -/
structure Dispatched (w : World) (log : Log) (v : World) : Prop where
  accounts : Accounts w log v
  /-- What waited is run before anything that came later, unless the loop is shut down. -/
  tasksFirst : v.tasks.isOpen = true → w.tasks.items <+: log.ran ++ v.tasks.items
  jobsFirst : v.jobs.isOpen = true → w.jobs.items <+: log.taken ++ v.jobs.items
  /-- A loop that is shut down runs nothing any more. -/
  loopStays : w.tasks.isOpen = false → log.ran = [] ∧ v.tasks = ⟨[], false⟩
  workersStay : w.jobs.isOpen = false → log.taken = [] ∧ v.jobs = ⟨[], false⟩
  /-- Whatever panics, the loop runs what waits task after task, unless a task shuts it down. -/
  loopGoesOn : ∃ n more u, v.watch (List.replicate n .task) = some (more, u) ∧
    more.ran = v.tasks.items.take n ∧
      (n = v.tasks.items.length ∨ n < v.tasks.items.length ∧ u.tasks.isOpen = false)
  /-- A job that is with a worker goes on, whatever its native call comes to. -/
  jobGoesOn : ∀ place job, v.running[place]? = some job →
    (∃ after, v.undergo (.finish place) = some after) ∨
      ∀ a files backends, ∃ after, v.undergo (.answer place a files backends) = some after
  /-- A worker that a job has left, be it by a panic, is free for the oldest job that waits. -/
  workerIsFree : ∀ job rest, v.jobs.items = job :: rest →
    w.running.length + log.taken.length < w.workers + log.left.length →
      ∃ after, v.undergo .take = some after ∧ v.takenBy .take = some job
  /-- Even if each native call panics, all the jobs that wait are taken. -/
  workersGoOn : 0 < v.workers → ∃ run more u, (∀ h ∈ run, h.IsHarsh) ∧
    v.watch run = some (more, u) ∧ more.taken = v.jobs.items

theorem Accounts.length_running (accounts : Accounts w log v) :
    w.running.length + log.taken.length = v.running.length + log.left.length := by
  have same := accounts.running.length_eq
  simpa only [List.length_map, List.length_append] using same

/-- The next native call of a job may come to anything, and if there is none, the job ends. -/
theorem World.exists_going {place : Nat} (there : w.running[place]? = some job) :
    (∃ after, w.undergo (.finish place) = some after) ∨
      ∀ a files backends, ∃ after, w.undergo (.answer place a files backends) = some after := by
  rcases makes : job.transfer.call? with _ | call
  · obtain ⟨outcome, ended⟩ := job.transfer.call?_eq_none_iff.mp makes
    exact .inl ⟨_, undergo_finish there ended⟩
  · exact .inr fun a files backends => ⟨_, undergo_answer a files backends there makes⟩

theorem dispatched (reached : Reachable .any w) (watched : w.watch run = some (log, v)) :
    Dispatched w log v := by
  have accounts := World.accounts_of_watch watched
  obtain ⟨tasksTidy, jobsTidy⟩ := reached.isTidy
  obtain ⟨tasksTidy', jobsTidy'⟩ := (reached.steps (steps_iff_watch.mpr ⟨run, log, watched⟩)).isTidy
  refine
    { accounts
      tasksFirst := accounts.tasks.items tasksTidy
      jobsFirst := accounts.jobs.items jobsTidy
      loopStays := accounts.tasks.of_shut tasksTidy
      workersStay := accounts.jobs.of_shut jobsTidy
      loopGoesOn := ?_
      jobGoesOn := fun place job => World.exists_going
      workerIsFree := fun job rest waits few => ?_
      workersGoOn := fun manned => ?_ }
  · obtain ⟨n, more, u, small, goes_on, ran, ended⟩ :=
      World.exists_drain tasksTidy' (Nat.le_refl v.tasks.items.length)
    refine ⟨n, more, u, goes_on, ran, ?_⟩
    rcases Nat.eq_or_lt_of_le small with all | fewer
    · exact .inl all
    · exact .inr ⟨fewer, ended.resolve_left (Nat.ne_of_lt fewer)⟩
  · -- fewer jobs are with workers than there are workers
    have counted := accounts.length_running
    have workers := accounts.workers
    obtain ⟨after, happens, takes, -⟩ :=
      World.exists_take (jobsTidy'.isOpen_of_waits waits) waits (by omega)
    exact ⟨after, happens, takes⟩
  · obtain ⟨run', more, u, harsh, goes_on, taken, -⟩ :=
      World.exists_takes jobsTidy' manned (Nat.le_refl v.jobs.items.length)
    rw [List.take_length] at taken
    exact ⟨run', more, u, harsh, goes_on, taken⟩

/-- Producers and consumers may do what they like to a queue: it hands out, in order and each once,
    the beginning of what it accepted, nothing is lost but with a shutdown, and nothing is handed
    out after that.  The tasks of the loop and the jobs of the workers go through such queues in
    all runs.  No panic keeps what was accepted from its turn, and the loop keeps the first panic
    since it was last asked for one. -/
theorem tasks_take_their_turn :
    (∀ (α : Type) (q : Queue α) (acts : List (Queue.Act α)), q.IsTidy → q.IsFifo acts) ∧
    (∀ w v, Steps .any w v ↔ ∃ run log, w.watch run = some (log, v)) ∧
    ∀ w run log v, Reachable .any w → w.watch run = some (log, v) →
      w.tasks.IsTidy ∧ w.jobs.IsTidy ∧ Dispatched w log v := by
  refine ⟨fun _ q acts tidy => tidy.isFifo acts, fun w v => steps_iff_watch,
    fun w run log v reached watched => ?_⟩
  obtain ⟨tasksTidy, jobsTidy⟩ := reached.isTidy
  exact ⟨tasksTidy, jobsTidy, dispatched reached watched⟩

/-- Three tasks on three contexts, of which the first two panic, and two jobs for one worker, of
    which the first panics. -/
def panickingRun : List Happening :=
  [.post ⟨0⟩ ⟨"first", [.panic "no more"], []⟩,
    .post ⟨1⟩ ⟨"second", [.panic "again"], []⟩,
    .post ⟨2⟩ ⟨"third", [
      .openFile 0 { write := true } .log (.memory (.bytes []) none {}),
      .write 0 (.bytes [1]) 0 ⟨"lost", [], []⟩,
      .write 0 (.bytes [2]) 1 ⟨"written", [], []⟩], []⟩,
    .task, .task, .task, .take, .answer 0 (.panicked "gone") ⟨[], []⟩ [], .take]

theorem tasks_run_past_panics : ∃ log v,
    (World.start 1 ⟨[], []⟩).watch panickingRun = some (log, v) ∧
    log.ran.map v.taskContext = [⟨0⟩, ⟨1⟩, ⟨2⟩] ∧ log.panics = ["no more", "again"] ∧
    log.taken.map Job.id = [0, 1] ∧ log.left.map Job.id = [0] ∧
    v.panicNote = some "no more" ∧ Dispatched (World.start 1 ⟨[], []⟩) log v ∧
    Queue.IsFifo {} [.push 1, .push 2, .pop, .shutDown, .push 3] := by
  have runs : (((World.start 1 ⟨[], []⟩).watch panickingRun).map fun (log, v) =>
      (log.ran.map v.taskContext, log.panics, log.taken.map Job.id, log.left.map Job.id,
        v.panicNote)) =
      some ([⟨0⟩, ⟨1⟩, ⟨2⟩], ["no more", "again"], [0, 1], [0], some "no more") := by
    decide +kernel
  obtain ⟨⟨log, v⟩, watched, same⟩ := Option.map_eq_some_iff.mp runs
  simp only [Prod.mk.injEq] at same
  obtain ⟨ran, panics, taken, left, kept⟩ := same
  obtain ⟨-, -, dispatched⟩ := tasks_take_their_turn.2.2 _ _ _ _ (.start 1 ⟨[], []⟩) watched
  exact ⟨log, v, watched, ran, panics, taken, left, kept, dispatched,
    tasks_take_their_turn.1 Nat {} _ (Queue.isTidy_of_open rfl)⟩

end PinnedFile
