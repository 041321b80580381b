/-
  PinnedFile.Proofs.Dispatch.Happenings

  Runs, told happening by happening.

  A happening says which step is made, so a run is a list of happenings, and the world that it
  leads to is computed from them.  A log goes along and keeps which tasks the loop ran, which jobs
  the workers took, which jobs have left them, and the panics of tasks.
-/

import Mathlib.Data.List.Induction
import PinnedFile.Proofs.Dispatch.Code

namespace PinnedFile

open Run

/-- What happens next.  A job is told by its place among those that are with workers. -/
inductive Happening where
  | task
  | command (context : ContextId) (c : Command)
  | body (context : ContextId) (body : List Command)
  | outside (c : Command)
  | post (context : ContextId) (task : Callback Command)
  | postLater (context : ContextId)
  | take
  /-- A native call returns or panics, and the files and backends are then what they are. -/
  | answer (place : Nat) (a : Answer) (files : FileTree) (backends : List Backend)
  | finish (place : Nat)
  | shutDown (origin : Origin)
  | freshContext
  | takePanic
deriving Repr

/-- What was dispatched in a run, the earliest first. -/
structure Log where
  /-- The tasks that the loop took from its queue. -/
  ran : List Task := []
  /-- The jobs that the workers took from theirs. -/
  taken : List Job := []
  /-- The jobs that have left the workers: they have come to their end, or they have panicked. -/
  left : List Job := []
  /-- What tasks have panicked with since a panic was last asked for. -/
  panics : List String := []
deriving Repr

namespace World

/-- The world after a happening, if it can happen. -/
def undergo (w : World) : Happening → Option World
  | .task => w.runTask
  | .command context c =>
    if w.tasks.isOpen then some (w.runOn context [] (c.run [])).2 else none
  | .body context body =>
    if w.tasks.isOpen then some (w.runOn context [] (runAll [] body)).2 else none
  | .outside c => some (exec (c.run []) w).2
  | .post context task => some (w.post (.client context task))
  | .postLater context => some (w.post (.later context))
  | .take => w.takeJob
  | .answer place a files backends => do
    let job ← w.running[place]?
    let call ← job.transfer.call?
    some ({ w with files, backends }.answer job call a)
  | .finish place => do
    let job ← w.running[place]?
    let outcome ← job.transfer.outcome?
    some (w.finish job outcome)
  | .shutDown origin => some (w.shutDown origin)
  | .freshContext => some w.freshContext.2
  | .takePanic => some w.takePanic.2

/-- The task that the loop takes. -/
@[simp] def ranBy (w : World) : Happening → Option Task
  | .task => w.tasks.pop.map (·.1)
  | _ => none

/-- The job that a worker takes. -/
@[simp] def takenBy (w : World) : Happening → Option Job
  | .take => w.jobs.pop.map (·.1)
  | _ => none

/-- The job that leaves its worker. -/
@[simp] def leftBy (w : World) : Happening → Option Job
  | .answer place a _ _ => w.running[place]?.filter fun job => (job.transfer.feed a).isNone
  | .finish place => w.running[place]?
  | _ => none

/-- What a task panics with on the loop. -/
@[simp] def panicBy (w : World) : Happening → Option String
  | .task => w.tasks.pop.bind fun (task, rest) =>
      { w with tasks := rest }.panicOf (w.taskContext task) (taskHolds task) (taskCode task)
  | .command context c => w.panicOf context [] (c.run [])
  | .body context body => w.panicOf context [] (runAll [] body)
  | _ => none

end World

/-- A log after one more happening. -/
def Log.next (log : Log) (w : World) (h : Happening) : Log where
  ran := log.ran ++ (w.ranBy h).toList
  taken := log.taken ++ (w.takenBy h).toList
  left := log.left ++ (w.leftBy h).toList
  panics :=
    match h with
    | .takePanic => []
    | _ => log.panics ++ (w.panicBy h).toList

theorem Log.ran_next (log : Log) (w : World) (h : Happening) :
    (log.next w h).ran = log.ran ++ (w.ranBy h).toList := rfl

theorem Log.taken_next (log : Log) (w : World) (h : Happening) :
    (log.next w h).taken = log.taken ++ (w.takenBy h).toList := rfl

/-- One happening, and the log that is kept. -/
def watchOne (seen : Log × World) (h : Happening) : Option (Log × World) :=
  (seen.2.undergo h).map fun after => (seen.1.next seen.2 h, after)

/-- The log of a run and the world that it leads to, if all this can happen.  A panic that is kept
    at the beginning is the first one. -/
def World.watch (w : World) (run : List Happening) : Option (Log × World) :=
  run.foldlM watchOne ({ panics := w.panicNote.toList }, w)

variable {w v after : World} {h : Happening} {log : Log} {run : List Happening} {job : Job}

/-! ## Happenings are steps -/

namespace World

theorem exists_of_answer {place : Nat} {a : Answer} {files : FileTree} {backends : List Backend}
    (happens : w.undergo (.answer place a files backends) = some after) :
    ∃ job call, w.running[place]? = some job ∧ job.transfer.call? = some call ∧
      after = { w with files, backends }.answer job call a := by
  simp only [undergo, Option.bind_eq_bind, Option.bind_eq_some_iff, Option.some.injEq] at happens
  obtain ⟨job, there, call, makes, same⟩ := happens
  exact ⟨job, call, there, makes, same.symm⟩

theorem exists_of_finish {place : Nat} (happens : w.undergo (.finish place) = some after) :
    ∃ job outcome, w.running[place]? = some job ∧ job.transfer.outcome? = some outcome ∧
      after = w.finish job outcome := by
  simp only [undergo, Option.bind_eq_bind, Option.bind_eq_some_iff, Option.some.injEq] at happens
  obtain ⟨job, there, outcome, ended, same⟩ := happens
  exact ⟨job, outcome, there, ended, same.symm⟩

theorem undergo_answer {place : Nat} {call : Call} (a : Answer) (files : FileTree)
    (backends : List Backend) (there : w.running[place]? = some job)
    (makes : job.transfer.call? = some call) :
    w.undergo (.answer place a files backends) =
      some ({ w with files, backends }.answer job call a) := by
  simp only [undergo, there, makes, Option.bind_eq_bind, Option.bind_some]

theorem undergo_finish {place : Nat} {outcome : Outcome} (there : w.running[place]? = some job)
    (ended : job.transfer.outcome? = some outcome) :
    w.undergo (.finish place) = some (w.finish job outcome) := by
  simp only [undergo, there, ended, Option.bind_eq_bind, Option.bind_some]

/-- A client has something done on a context only while the loop is up. -/
theorem exists_of_command {context : ContextId} {c : Command}
    (happens : w.undergo (.command context c) = some after) :
    w.tasks.isOpen = true ∧ after = (w.runOn context [] (c.run [])).2 := by
  simp only [undergo, Option.ite_none_right_eq_some, Option.some.injEq] at happens
  exact ⟨happens.1, happens.2.symm⟩

theorem exists_of_body {context : ContextId} {body : List Command}
    (happens : w.undergo (.body context body) = some after) :
    w.tasks.isOpen = true ∧ after = (w.runOn context [] (runAll [] body)).2 := by
  simp only [undergo, Option.ite_none_right_eq_some, Option.some.injEq] at happens
  exact ⟨happens.1, happens.2.symm⟩

end World

theorem step_of_undergo (happens : w.undergo h = some after) : Step .any w after := by
  have no_calm {P : Prop} (calm : Mode.any = .calm) : P := by cases calm
  cases h with
  | task => exact .task happens no_calm
  | command context c =>
    obtain ⟨alive, rfl⟩ := World.exists_of_command happens
    exact .command context c alive
  | body context body =>
    obtain ⟨alive, rfl⟩ := World.exists_of_body happens
    exact .body context body alive
  | outside c =>
    obtain rfl := Option.some.inj happens
    exact .outside c
  | post context task =>
    obtain rfl := Option.some.inj happens
    exact .post context task
  | postLater context =>
    obtain rfl := Option.some.inj happens
    exact .postLater context
  | take => exact .take happens
  | answer place a files backends =>
    obtain ⟨job, call, there, makes, rfl⟩ := World.exists_of_answer happens
    exact .answer a files backends (List.mem_of_getElem? there) makes no_calm
  | finish place =>
    obtain ⟨job, outcome, there, ended, rfl⟩ := World.exists_of_finish happens
    exact .finish (List.mem_of_getElem? there) ended
  | shutDown origin =>
    obtain rfl := Option.some.inj happens
    exact .shutDown origin
  | freshContext =>
    obtain rfl := Option.some.inj happens
    exact .freshContext
  | takePanic =>
    obtain rfl := Option.some.inj happens
    exact .takePanic

theorem Step.exists_undergo (step : Step .any w after) : ∃ h, w.undergo h = some after := by
  cases step with
  | task runs => exact ⟨.task, runs⟩
  | command context c alive => exact ⟨.command context c, if_pos alive⟩
  | body context body alive => exact ⟨.body context body, if_pos alive⟩
  | outside c => exact ⟨.outside c, rfl⟩
  | post context task => exact ⟨.post context task, rfl⟩
  | postLater context => exact ⟨.postLater context, rfl⟩
  | take takes => exact ⟨.take, takes⟩
  | answer a files backends running makes =>
    obtain ⟨place, there⟩ := List.mem_iff_getElem?.mp running
    exact ⟨.answer place a files backends, World.undergo_answer a files backends there makes⟩
  | finish running ended =>
    obtain ⟨place, there⟩ := List.mem_iff_getElem?.mp running
    exact ⟨.finish place, World.undergo_finish there ended⟩
  | shutDown origin => exact ⟨.shutDown origin, rfl⟩
  | freshContext => exact ⟨.freshContext, rfl⟩
  | takePanic => exact ⟨.takePanic, rfl⟩

/-! ## Runs -/

/-- A run that goes on has come to some moment before. -/
theorem World.watch_concat_iff : w.watch (run ++ [h]) = some (log, after) ↔
    ∃ before v, w.watch run = some (before, v) ∧ v.undergo h = some after ∧
      log = before.next v h := by
  simp only [watch, List.foldlM_append, List.foldlM_cons, List.foldlM_nil, watchOne,
    Option.bind_eq_bind, Option.bind_eq_some_iff, Option.map_eq_some_iff, Option.pure_def,
    Option.some.injEq, Prod.exists, Prod.mk.injEq]
  constructor
  · rintro ⟨before, v, watched, log', after', ⟨_, happens, rfl, rfl⟩, rfl, rfl⟩
    exact ⟨before, v, watched, happens, rfl⟩
  · rintro ⟨before, v, watched, happens, rfl⟩
    exact ⟨before, v, watched, _, _, ⟨after, happens, rfl, rfl⟩, rfl, rfl⟩

theorem World.watch_concat (watched : w.watch run = some (log, v))
    (happens : v.undergo h = some after) :
    w.watch (run ++ [h]) = some (log.next v h, after) :=
  watch_concat_iff.mpr ⟨log, v, watched, happens, rfl⟩

/-- What holds at the beginning and is kept by every happening holds after a run. -/
theorem World.watch_induct {P : Log → World → Prop} (start : P { panics := w.panicNote.toList } w)
    (next : ∀ log v h after, Steps .any w v → P log v → v.undergo h = some after →
      P (log.next v h) after)
    (watched : w.watch run = some (log, v)) : Steps .any w v ∧ P log v := by
  -- the log grows at the end of the run, so the induction takes the last happening off
  induction run using List.reverseRecOn generalizing log v with
  | nil =>
    obtain ⟨rfl, rfl⟩ := Prod.mk.inj (Option.some.inj watched)
    exact ⟨.refl, start⟩
  | append_singleton run h ih =>
    obtain ⟨before, middle, first, happens, rfl⟩ := watch_concat_iff.mp watched
    obtain ⟨steps, holds⟩ := ih first
    exact ⟨steps.tail (step_of_undergo happens), next before middle h v steps holds happens⟩

/-- The runs that can be watched are all there are. -/
theorem steps_iff_watch : Steps .any w v ↔ ∃ run log, w.watch run = some (log, v) := by
  constructor
  · intro steps
    induction steps with
    | refl => exact ⟨[], _, rfl⟩
    | tail _ last ih =>
      obtain ⟨run, log, watched⟩ := ih
      obtain ⟨h, happens⟩ := last.exists_undergo
      exact ⟨run ++ [h], _, World.watch_concat watched happens⟩
  · rintro ⟨run, log, watched⟩
    exact (World.watch_induct (P := fun _ _ => True) trivial (fun _ _ _ _ _ _ _ => trivial)
      watched).1

/-! ## What a log accounts for -/

/-- A log tells what was dispatched on the way from one world to another. -/
structure Accounts (w : World) (log : Log) (v : World) : Prop where
  /-- The loop ran what its queue handed out. -/
  tasks : w.tasks.Serves log.ran v.tasks
  /-- The workers took what theirs handed out. -/
  jobs : w.jobs.Serves log.taken v.jobs
  /-- Whatever a worker took, it has or has left. -/
  running : ((w.running ++ log.taken).map Job.id).Perm ((v.running ++ log.left).map Job.id)
  workers : v.workers = w.workers
  /-- The panic that is kept is the first one since it was last asked for. -/
  panicNote : v.panicNote = log.panics.head?

namespace Accounts

theorem start (w : World) : Accounts w { panics := w.panicNote.toList } w where
  tasks := Queue.serves_refl _
  jobs := Queue.serves_refl _
  running := .refl _
  workers := rfl
  panicNote := by cases w.panicNote <;> rfl

variable {context : ContextId} {holds : List HandleId} {files : FileTree}
  {backends : List Backend}

/-- What adds to the queues hands nothing out. -/
theorem adds (accounts : Accounts w log v) (adds : Adds v after) : Accounts w log after where
  tasks := by
    have tasks := accounts.tasks.trans adds.tasks
    rwa [List.append_nil] at tasks
  jobs := by
    have jobs := accounts.jobs.trans adds.jobs
    rwa [List.append_nil] at jobs
  running := by rw [adds.running]; exact accounts.running
  workers := adds.workers.trans accounts.workers
  panicNote := adds.panicNote.trans accounts.panicNote

/-- The panic that ends a task is the last one of the log. -/
theorem runOn {α : Type} {code : Run α} (accounts : Accounts w log v)
    (leads : Leads Adds code (v.entered context holds)) :
    Accounts w { log with panics := log.panics ++ (v.panicOf context holds code).toList }
      (v.runOn context holds code).2 := by
  obtain ⟨u, adds, same⟩ := World.exists_runOn_adds leads
  obtain ⟨tasks, jobs, running, workers, -⟩ := accounts.adds adds
  rw [same]
  refine ⟨tasks, jobs, running, workers, ?_⟩
  -- the first of the panics stays the first, unless this one is alone
  show v.panicNote.or _ = (log.panics ++ _).head?
  rw [List.head?_append, ← accounts.panicNote]
  cases v.panicOf context holds code <;> rfl

theorem task (accounts : Accounts w log v) (runs : v.runTask = some after) :
    Accounts w (log.next v .task) after := by
  obtain ⟨task, rest, next, rfl⟩ := World.exists_task_of_runTask runs
  -- the task is off the queue before its code runs, so its panic cannot put it back
  have popped : Accounts w { log with ran := log.ran ++ [task] } { v with tasks := rest } :=
    { accounts with tasks := accounts.tasks.trans (Queue.serves_pop next) }
  have leads : Leads Adds (World.taskCode task)
      (({ v with tasks := rest } : World).entered (v.taskContext task) (World.taskHolds task)) :=
    adds_taskCode task
  simpa [Log.next, next] using popped.runOn leads

theorem take (accounts : Accounts w log v) (takes : v.takeJob = some after) :
    Accounts w (log.next v .take) after := by
  obtain ⟨job, rest, next, rfl⟩ := World.exists_takeJob takes
  have taken : Accounts w { log with taken := log.taken ++ [job] }
      { v with jobs := rest, running := v.running ++ [job] } := by
    refine { accounts with jobs := accounts.jobs.trans (Queue.serves_pop next), running := ?_ }
    have before := accounts.running
    simp only [List.map_append] at before ⊢
    rw [List.perm_iff_count] at before ⊢
    intro id
    have counted := before id
    simp only [List.count_append] at counted ⊢
    omega
  have noted := taken.adds (adds_record (.taken job.id))
  simpa [Log.next, next] using noted

/-- A job that its worker is rid of has left it. -/
theorem withoutJob (accounts : Accounts w log v) (running : job ∈ v.running) :
    Accounts w { log with left := log.left ++ [job] } (v.withoutJob job) := by
  refine { accounts with running := ?_ }
  -- the job that goes is the first with the number, and only numbers are counted
  obtain ⟨other, before, behind, -, same, listed, erased⟩ :=
    List.exists_of_eraseP (p := (·.id = job.id)) running (decide_eq_true rfl)
  have numbered : other.id = job.id := of_decide_eq_true same
  have accounted := accounts.running
  rw [World.withoutJob, erased]
  rw [listed] at accounted
  simp only [List.map_append, List.map_cons, List.map_nil, numbered] at accounted ⊢
  rw [List.perm_iff_count] at accounted ⊢
  intro id
  have counted := accounted id
  simp only [List.count_append, List.count_cons, List.count_nil] at counted ⊢
  omega

/-- A job whose native call returns goes on, or it leaves with a panic. -/
theorem answer {place : Nat} {call : Call} (a : Answer) (accounts : Accounts w log v)
    (there : v.running[place]? = some job) :
    Accounts w (log.next v (.answer place a files backends))
      ({ v with files, backends }.answer job call a) := by
  have moved : Accounts w log { v with files, backends } := { accounts with }
  have rid := (moved.withoutJob (List.mem_of_getElem? there)).adds
    (adds_record (.native job.id job.handle call a))
  unfold World.answer
  rcases fed : job.transfer.feed a with _ | t
  · have logged : log.next v (.answer place a files backends) =
        { log with left := log.left ++ [job] } := by
      simp [Log.next, there, fed, Option.filter_some]
    rw [logged]
    exact rid.adds (adds_of_same rfl rfl rfl rfl rfl)
  · have logged : log.next v (.answer place a files backends) = log := by
      simp [Log.next, there, fed, Option.filter_some]
    rw [logged]
    refine { moved with running := rid.running.trans ?_ }
    -- the job is back with its worker, under the number that it had
    simp only [List.map_append, List.append_assoc]
    exact List.perm_append_comm.append_left _

theorem finish {place : Nat} {outcome : Outcome} (accounts : Accounts w log v)
    (there : v.running[place]? = some job) :
    Accounts w (log.next v (.finish place)) (v.finish job outcome) := by
  have rid := accounts.withoutJob (List.mem_of_getElem? there)
  -- the delivery is posted, or with a loop that is shut down it is dropped
  have handed : Adds (v.withoutJob job) (v.finish job outcome) := by
    unfold World.finish
    dsimp only
    split
    · exact adds_post _
    · exact adds_of_same rfl rfl rfl rfl rfl
  simpa [Log.next, there] using rid.adds handed

theorem takePanic (accounts : Accounts w log v) :
    Accounts w (log.next v .takePanic) v.takePanic.2 := by
  have taken : Accounts w { log with panics := [] } v.takePanic.2 :=
    { accounts with panicNote := rfl }
  simpa [Log.next] using taken

/-- One more happening is one more entry. -/
theorem next (accounts : Accounts w log v) (happens : v.undergo h = some after) :
    Accounts w (log.next v h) after := by
  cases h with
  | task => exact accounts.task happens
  | command context c =>
    obtain ⟨-, rfl⟩ := World.exists_of_command happens
    have leads : Leads Adds (c.run []) (v.entered context []) := (moves_command [] c _).adds
    simpa [Log.next] using accounts.runOn leads
  | body context body =>
    obtain ⟨-, rfl⟩ := World.exists_of_body happens
    have leads : Leads Adds (runAll [] body) (v.entered context []) :=
      (moves_runAll [] body _).adds
    simpa [Log.next] using accounts.runOn leads
  | outside c =>
    obtain rfl := Option.some.inj happens
    simpa [Log.next] using accounts.adds (moves_command [] c v).adds
  | post context task =>
    obtain rfl := Option.some.inj happens
    simpa [Log.next] using accounts.adds (adds_post _)
  | postLater context =>
    obtain rfl := Option.some.inj happens
    simpa [Log.next] using accounts.adds (adds_post _)
  | take => exact accounts.take happens
  | answer place a files backends =>
    obtain ⟨job, call, there, -, rfl⟩ := World.exists_of_answer happens
    exact accounts.answer a there
  | finish place =>
    obtain ⟨job, outcome, there, -, rfl⟩ := World.exists_of_finish happens
    exact accounts.finish there
  | shutDown origin =>
    obtain rfl := Option.some.inj happens
    simpa [Log.next] using accounts.adds (adds_shutDown origin)
  | freshContext =>
    obtain rfl := Option.some.inj happens
    have numbered : Adds v v.freshContext.2 := adds_of_same rfl rfl rfl rfl rfl
    simpa [Log.next] using accounts.adds numbered
  | takePanic =>
    obtain rfl := Option.some.inj happens
    exact accounts.takePanic

end Accounts

theorem World.accounts_of_watch (watched : w.watch run = some (log, v)) : Accounts w log v :=
  (watch_induct (.start w) (fun _ _ _ _ _ accounts => accounts.next) watched).2

end PinnedFile
