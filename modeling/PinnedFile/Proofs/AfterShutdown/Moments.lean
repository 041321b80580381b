/-
  PinnedFile.Proofs.AfterShutdown.Moments

  Runs in which a shutdown can come at any moment.

  A step of a run lets a whole task go through.  Here the loop is a thread of its own: it takes a
  task off its queue, begins it, completes the operation and tells the client if it is a delivery,
  does what the code of the task does, one chore after the other, and leaves its context.  Between
  any two of these the workers go on, others post tasks, and the loop or the workers may be shut
  down, the loop first and the workers some time after it, or both at once.  The steps of a run
  are sequences of such changes.

  Neither a push nor a shutdown is one change.  A push finds the loop up, and puts its task into
  the queue some time later.  A shutdown begins with the mark that pushes look for, and what waits
  is dropped some time later.  So a push may come too late for the loop, and its task is left in
  the queue.  The queue of the workers knows no such pushes: jobs are put into it by the loop
  alone, and the workers are shut down by the loop itself, or by somebody who has waited for the
  loop to end.
-/

import PinnedFile.Proofs.Deeds

namespace PinnedFile

open Run

/-! ## Shutting down -/

namespace World

/-- A world in which the queue of the loop is closed, and what waited there is dropped. -/
def closeLoop (w : World) (origin : Origin) : World :=
  let left := if origin = .loop then [] else w.tasks.items.flatMap taskHolds
  { w with tasks := w.tasks.shutDown.2, leaked := left ++ w.leaked }

/-- A world in which the queue of the workers is closed, and what waited there is dropped. -/
def closeWorkers (w : World) (origin : Origin) : World :=
  let left := if origin = .loop then [] else w.jobs.items.flatMap Job.holds
  { w with jobs := w.jobs.shutDown.2, leaked := left ++ w.leaked }

/-- A world in which nobody finds the loop up any more, and what waits for it is not dropped
    yet. -/
def haltLoop (w : World) : World := { w with tasks := w.tasks.close }

/-- A shutdown closes both queues. -/
theorem shutDown_eq (w : World) (origin : Origin) : w.shutDown origin =
    (((w.closeWorkers origin).closeLoop origin).record .shutDown).sweep := by
  by_cases onLoop : origin = .loop
  · simp only [shutDown, closeLoop, closeWorkers, Queue.shutDown, onLoop, if_true, List.nil_append]
  · simp only [shutDown, closeLoop, closeWorkers, Queue.shutDown, if_neg onLoop, List.append_assoc]

end World

/-! ## Moments -/

/-- What a client does outside the loop.  No context is current there, and the one of the loop's
    task is left as it is. -/
def World.doneOutside (w : World) (c : Command) : World :=
  { (exec (c.run []) { w with context := none }).2 with context := w.context }

/-- How far the loop is with its task. -/
inductive Stage where
  /-- It has none. -/
  | idle
  /-- It has taken a task off its queue and entered the context. -/
  | taken (task : Task)
  /-- It has completed an operation, and nobody is told of it yet. -/
  | completed (job : Job) (outcome : Outcome)
  /-- It runs the code of a client, or its own around it. -/
  | working

/-- A world in the middle of a run, how far the loop is with its task, and which pushes are under
    way. -/
structure Moment where
  world : World
  stage : Stage := .idle
  /-- The tasks whose push has found the loop up and has not put them into its queue yet. -/
  passing : List Task := []

/-- A world in which the push of a task comes to its end: the task is in the queue of the loop,
    and the worker that has pushed the outcome of a job is done with the job. -/
def World.landed (w : World) (task : Task) : World :=
  { (task.job?.map w.withoutJob).getD w with tasks := w.tasks.land task }

theorem World.history_landed {w : World} {task : Task} : (w.landed task).history = w.history := by
  cases task <;> rfl

/-- One change that is not made by the loop: a client does something outside of it, a worker goes
    on, the loop or the workers are shut down. -/
inductive Elsewhere : World → World → Prop where
  /-- Outside the loop no context is current. -/
  | outside {w : World} (c : Command) : Elsewhere w (w.doneOutside c)
  | freshContext {w : World} : Elsewhere w w.freshContext.2
  | takePanic {w : World} : Elsewhere w w.takePanic.2
  | take {w after : World} (takes : w.takeJob = some after) : Elsewhere w after
  | answer {w : World} {job : Job} {call : Call} (a : Answer) (files : FileTree)
      (backends : List Backend) (running : job ∈ w.running)
      (makes : job.transfer.call? = some call) :
      Elsewhere w ({ w with files, backends }.answer job call a)
  /-- A shutdown of the loop begins, by whomever. -/
  | haltLoop {w : World} : Elsewhere w w.haltLoop
  /-- The loop is shut down, and what waits for it is dropped. -/
  | stopLoop {w : World} (origin : Origin) : Elsewhere w (w.closeLoop origin).sweep
  /-- The workers are shut down, after the loop. -/
  | stopWorkers {w : World} (origin : Origin) (shut : w.tasks.isOpen = false) :
      Elsewhere w ((w.closeWorkers origin).record .shutDown).sweep
  /-- Both are shut down at once. -/
  | shutDown {w : World} (origin : Origin) : Elsewhere w (w.shutDown origin)

/-- One change, on the loop or elsewhere. -/
inductive Next : Moment → Moment → Prop where
  | begin {w : World} {passing : List Task} {task : Task} {rest : Queue Task}
      (next : w.tasks.pop = some (task, rest)) :
      Next ⟨w, .idle, passing⟩
        ⟨{ w with tasks := rest }.entered (w.taskContext task) (World.taskHolds task), .taken task,
          passing⟩
  | start {w : World} {passing : List Task} {task : Task} (plain : task.job? = none) :
      Next ⟨w, .taken task, passing⟩ ⟨w.starting task, .working, passing⟩
  | complete {w : World} {passing : List Task} {job : Job} {outcome : Outcome}
      (here : w.OnOwner job.handle) :
      Next ⟨w, .taken (.deliver job outcome), passing⟩
        ⟨w.completing job outcome, .completed job outcome, passing⟩
  | tell {w : World} {passing : List Task} {job : Job} {outcome : Outcome}
      (here : w.OnOwner job.handle) :
      Next ⟨w, .completed job outcome, passing⟩ ⟨w.told job outcome, .working, passing⟩
  | chore {w after : World} {passing : List Task} (chore : Chore w after) :
      Next ⟨w, .working, passing⟩ ⟨after, .working, passing⟩
  | leave {w : World} {passing : List Task} (left : w.context = none) :
      Next ⟨w, .working, passing⟩ ⟨w, .idle, passing⟩
  /-- A client has something done on a context, as the loop has no task. -/
  | enter {w : World} {passing : List Task} (context : ContextId)
      (alive : w.tasks.isOpen = true) :
      Next ⟨w, .idle, passing⟩ ⟨w.entered context [], .working, passing⟩
  /-- Somebody who pushes a task finds the loop up. -/
  | pass {w : World} {stage : Stage} {passing : List Task} {task : Task}
      (alive : w.tasks.isOpen = true) (plain : task.job? = none) :
      Next ⟨w, stage, passing⟩ ⟨w, stage, task :: passing⟩
  /-- A worker finds the loop up as it hands over a job that has come to its end.  The job stays
      with the worker until the push is made. -/
  | passOutcome {w : World} {stage : Stage} {passing : List Task} {job : Job} {outcome : Outcome}
      (alive : w.tasks.isOpen = true) (running : job ∈ w.running)
      (ended : job.transfer.outcome? = some outcome)
      (once : ∀ other ∈ passing.filterMap Task.job?, other.id ≠ job.id) :
      Next ⟨w, stage, passing⟩ ⟨w, stage, .deliver job outcome :: passing⟩
  /-- A push that has found the loop up puts its task into the queue.  It does not look again. -/
  | land {w : World} {stage : Stage} {before behind : List Task} {task : Task} :
      Next ⟨w, stage, before ++ task :: behind⟩ ⟨w.landed task, stage, before ++ behind⟩
  /-- A worker finds the loop shut down as it hands over a job, and drops it. -/
  | finish {w : World} {stage : Stage} {passing : List Task} {job : Job} {outcome : Outcome}
      (shut : w.tasks.isOpen = false) (running : job ∈ w.running)
      (ended : job.transfer.outcome? = some outcome)
      (once : ∀ other ∈ passing.filterMap Task.job?, other.id ≠ job.id) :
      Next ⟨w, stage, passing⟩ ⟨w.finish job outcome, stage, passing⟩
  | elsewhere {w after : World} {passing : List Task} (stage : Stage)
      (change : Elsewhere w after) : Next ⟨w, stage, passing⟩ ⟨after, stage, passing⟩

/-- Any number of changes, one after the other. -/
abbrev Later : Moment → Moment → Prop := Relation.ReflTransGen Next

/-- A moment that some run comes to. -/
def Moment.Reached (m : Moment) : Prop :=
  ∃ workers files, Later ⟨World.start workers files, .idle, []⟩ m

/-! ## Runs come to moments -/

variable {mode : Mode} {w after : World} {m m' : Moment} {job : Job} {outcome : Outcome}
  {rest : Queue Task} {passing : List Task}

theorem Moment.Reached.later (reached : m.Reached) (later : Later m m') : m'.Reached := by
  obtain ⟨workers, files, before⟩ := reached
  exact ⟨workers, files, before.trans later⟩

theorem Chores.later (chores : Chores w after) :
    Later ⟨w, .working, passing⟩ ⟨after, .working, passing⟩ := by
  induction chores with
  | refl => exact .refl
  | tail _ last ih => exact ih.tail (.chore last)

/-- Code that runs on a context ends there, and the loop is idle again. -/
theorem later_leave {α : Type} {context : ContextId} {holds : List HandleId} {code : Run α}
    (outside : w.context = none) :
    Later ⟨(exec code (w.entered context holds)).2, .working, passing⟩
      ⟨(w.runOn context holds code).2, .idle, passing⟩ := by
  -- the context that was found is put back, whatever the code has done
  have left : (w.runOn context holds code).2.context = none :=
    World.context_runOn.trans outside
  exact (Chores.later chores_leave).tail (.leave left)

/-- A delivery on the context of its handle. -/
theorem later_deliver (outside : w.context = none)
    (next : w.tasks.pop = some (.deliver job outcome, rest))
    (here : (w.delivering job outcome rest).OnOwner job.handle) :
    Later ⟨w, .idle, passing⟩
      ⟨({ w with tasks := rest }.runOn (w.taskContext (.deliver job outcome)) job.holds
        (deliver job outcome)).2, .idle, passing⟩ := by
  have told : Later ⟨w, .idle, passing⟩
      ⟨((w.delivering job outcome rest).completing job outcome).told job outcome, .working,
        passing⟩ :=
    .head (.begin next) (.head (.complete here)
      (.single (.tell (World.onOwner_completing job outcome here))))
  refine (told.trans (Chores.later (chores_deliver outcome here))).trans ?_
  exact later_leave (w := { w with tasks := rest }) outside

/-- A task that delivers nothing. -/
theorem later_plainTask {task : Task} (outside : w.context = none)
    (next : w.tasks.pop = some (task, rest)) (plain : task.job? = none) :
    Later ⟨w, .idle, passing⟩ ⟨({ w with tasks := rest }.runOn (w.taskContext task)
      (World.taskHolds task) (World.taskCode task)).2, .idle, passing⟩ := by
  refine .head (.begin next) (.head (.start plain) ?_)
  exact (Chores.later (chores_plainTask plain)).trans
    (later_leave (w := { w with tasks := rest }) outside)

/-- Code of a client that runs on a context. -/
theorem later_client {α : Type} {context : ContextId} {code : Run α} (outside : w.context = none)
    (alive : w.tasks.isOpen = true) (moves : ∀ v, Moves v (exec code v).2) :
    Later ⟨w, .idle, passing⟩ ⟨(w.runOn context [] code).2, .idle, passing⟩ :=
  .head (.enter context alive) ((Chores.later (moves _).chores).trans (later_leave outside))

/-- A push that nothing comes between. -/
theorem later_post {stage : Stage} {task : Task} (plain : task.job? = none) :
    Later ⟨w, stage, passing⟩ ⟨w.post task, stage, passing⟩ := by
  rcases isOpen : w.tasks.isOpen with _ | _
  · -- it is refused, and that is all
    have same : w.post task = w := by rw [World.post, Queue.push_of_shut isOpen]
    rw [same]
  · have landed : w.landed task = w.post task := by
      rw [World.landed, plain, World.post, Queue.push_eq, isOpen]
      rfl
    have lands : Next ⟨w, stage, [] ++ task :: passing⟩ ⟨w.landed task, stage, [] ++ passing⟩ :=
      .land
    rw [landed] at lands
    exact .head (.pass isOpen plain) (.single lands)

/-- A job that is handed over with nothing coming between. -/
theorem later_finish {stage : Stage} (running : job ∈ w.running)
    (ended : job.transfer.outcome? = some outcome)
    (once : ∀ other ∈ passing.filterMap Task.job?, other.id ≠ job.id) :
    Later ⟨w, stage, passing⟩ ⟨w.finish job outcome, stage, passing⟩ := by
  rcases isOpen : w.tasks.isOpen with _ | _
  · exact .single (.finish isOpen running ended once)
  · have landed : w.landed (.deliver job outcome) = w.finish job outcome := by
      have isOpen' : (w.withoutJob job).tasks.isOpen = true := isOpen
      rw [World.finish, if_pos isOpen', World.post, Queue.push_eq, if_pos isOpen']
      rfl
    have lands : Next ⟨w, stage, [] ++ .deliver job outcome :: passing⟩
        ⟨w.landed (.deliver job outcome), stage, [] ++ passing⟩ := .land
    rw [landed] at lands
    exact .head (.passOutcome isOpen running ended once) (.single lands)

/-- A step is a sequence of changes, at the end of which the loop has no task again and no push is
    under way. -/
theorem Step.later (step : Step mode w after) (outside : w.context = none)
    (known : ∀ job outcome, .deliver job outcome ∈ w.tasks.items →
      ∃ s, w.handles[job.handle]? = some s) : Later ⟨w, .idle, []⟩ ⟨after, .idle, []⟩ := by
  cases step with
  | task runs calm =>
    obtain ⟨task, rest, next, rfl⟩ := World.exists_task_of_runTask runs
    cases task with
    | deliver job outcome =>
      obtain ⟨s, found⟩ := known job outcome (Queue.mem_of_pop next)
      exact later_deliver outside next (World.onOwner_delivering outcome rest found)
    | client context task => exact later_plainTask outside next rfl
    | later context => exact later_plainTask outside next rfl
  | command context c alive => exact later_client outside alive (moves_command [] c)
  | body context body alive => exact later_client outside alive (moves_runAll [] body)
  | outside c =>
    -- between two tasks no context is current in any case
    have stays := Moves.context (moves_command [] c w)
    have same : w.doneOutside c = (exec (c.run []) w).2 := by
      rw [World.doneOutside, ← outside]
      show { (exec (c.run []) w).2 with context := w.context } = _
      rw [← stays]
    have change := Elsewhere.outside (w := w) c
    rw [same] at change
    exact .single (.elsewhere .idle change)
  | post context task => exact later_post rfl
  | postLater context => exact later_post rfl
  | take takes => exact .single (.elsewhere .idle (.take takes))
  | answer a files backends running makes calm =>
    exact .single (.elsewhere .idle (.answer a files backends running makes))
  | finish running ended =>
    exact later_finish running ended fun _ listed => absurd listed List.not_mem_nil
  | shutDown origin => exact .single (.elsewhere .idle (.shutDown origin))
  | freshContext => exact .single (.elsewhere .idle .freshContext)
  | takePanic => exact .single (.elsewhere .idle .takePanic)

/-- What a run does between two moments at which the loop is idle. -/
theorem Steps.later (steps : Steps mode w after) (reached : Reachable mode w) :
    Later ⟨w, .idle, []⟩ ⟨after, .idle, []⟩ := by
  induction steps with
  | refl => exact .refl
  | tail before last ih =>
    have middle := reached.steps before
    exact ih.trans (last.later middle.context (known_of_sound middle.sound))

/-- Whatever a run comes to between two steps is such a moment. -/
theorem Reachable.reached (reached : Reachable mode w) : Moment.Reached ⟨w, .idle, []⟩ := by
  obtain ⟨workers, files, steps⟩ := reached
  exact ⟨workers, files, Steps.later steps (.start workers files)⟩

end PinnedFile
