/-
  PinnedFile.Proofs.Runs

  Runs, with nothing left to a schedule.

  A step is whatever can happen next: the loop runs a task, a client has something done,
  a worker takes a job, a native call of any job returns with any answer, any job that has
  come to its end is handed to the loop, all is shut down.  Workers go on in any order,
  and backends answer as they like.  A session is one of these runs.
-/

import PinnedFile.Proofs.Code
import PinnedFile.Session
import Mathlib.Logic.Relation

namespace PinnedFile

open Run

/-- What may go wrong in a run. -/
inductive Mode where
  /-- Callbacks and native work may panic. -/
  | any
  /-- The callbacks that deliveries call return, and native work does not panic. -/
  | calm
deriving DecidableEq, Repr

namespace World

/-- A world in which code runs on a context, holding some handles. -/
def entered (w : World) (context : ContextId) (holds : List HandleId) : World :=
  { w with context := some context, held := holds }

/-- A world in which the task begins that delivers an outcome, the tasks behind it being
    `rest`. -/
def delivering (w : World) (job : Job) (outcome : Outcome) (rest : Queue Task) : World :=
  { w with tasks := rest }.entered (w.taskContext (.deliver job outcome)) job.holds

/-- The task that the loop runs is the first of those that wait. -/
theorem exists_task_of_runTask {w after : World} (runs : w.runTask = some after) :
    ∃ task rest, w.tasks.pop = some (task, rest) ∧
      after = ({ w with tasks := rest }.runOn (w.taskContext task) (taskHolds task)
        (taskCode task)).2 := by
  unfold runTask at runs
  split at runs
  · cases runs
  next task rest next => exact ⟨task, rest, next, (Option.some.inj runs).symm⟩

/-- A worker takes the first of the jobs that wait. -/
theorem exists_takeJob {w after : World} (takes : w.takeJob = some after) :
    ∃ job rest, w.jobs.pop = some (job, rest) ∧
      after = ({ w with jobs := rest, running := w.running ++ [job] } : World).record
        (.taken job.id) := by
  unfold takeJob at takes
  split at takes
  · split at takes
    · cases takes
    next job rest next => exact ⟨job, rest, next, (Option.some.inj takes).symm⟩
  · cases takes

/-- If the next task is a delivery, the callbacks that it calls return. -/
def CallbacksReturn (w : World) : Prop :=
  ∀ job outcome rest, w.tasks.pop = some (.deliver job outcome, rest) →
    (exec (announce job outcome) (w.delivering job outcome rest)).1 = .ok ()

end World

/-- One step of a run. -/
inductive Step (mode : Mode) : World → World → Prop where
  /-- The loop runs the next task. -/
  | task {w after : World} (runs : w.runTask = some after)
      (calm : mode = .calm → w.CallbacksReturn) : Step mode w after
  /-- A client has one command done on a context. -/
  | command {w : World} (context : ContextId) (c : Command) (alive : w.tasks.isOpen = true) :
      Step mode w (w.runOn context [] (c.run [])).2
  /-- A client has commands done on a context. -/
  | body {w : World} (context : ContextId) (body : List Command)
      (alive : w.tasks.isOpen = true) : Step mode w (w.runOn context [] (runAll [] body)).2
  /-- A client does something outside the loop. -/
  | outside {w : World} (c : Command) : Step mode w (exec (c.run []) w).2
  /-- A client has a task wait for the loop. -/
  | post {w : World} (context : ContextId) (task : Callback Command) :
      Step mode w (w.post (.client context task))
  | postLater {w : World} (context : ContextId) : Step mode w (w.post (.later context))
  /-- A free worker takes the next job. -/
  | take {w after : World} (takes : w.takeJob = some after) : Step mode w after
  /-- The native call of a job returns, and the backends and files are then what they are. -/
  | answer {w : World} {job : Job} {call : Call} (a : Answer) (files : FileTree)
      (backends : List Backend) (running : job ∈ w.running)
      (makes : job.transfer.call? = some call)
      (calm : mode = .calm → job.transfer.feed a ≠ none) :
      Step mode w ({ w with files, backends }.answer job call a)
  /-- A job that has come to an end is handed to the loop. -/
  | finish {w : World} {job : Job} {outcome : Outcome} (running : job ∈ w.running)
      (ended : job.transfer.outcome? = some outcome) : Step mode w (w.finish job outcome)
  | shutDown {w : World} (origin : Origin) : Step mode w (w.shutDown origin)
  | freshContext {w : World} : Step mode w w.freshContext.2
  | takePanic {w : World} : Step mode w w.takePanic.2

/-- Any number of steps, one after the other. -/
abbrev Steps (mode : Mode) : World → World → Prop := Relation.ReflTransGen (Step mode)

/-- A world that some run comes to. -/
def Reachable (mode : Mode) (w : World) : Prop :=
  ∃ workers files, Steps mode (.start workers files) w

/-- A calm run is a run. -/
theorem Step.any {mode : Mode} {w after : World} (step : Step mode w after) :
    Step .any w after := by
  cases step with
  | task runs calm => exact .task runs fun calm => by cases calm
  | command context c alive => exact .command context c alive
  | body context body alive => exact .body context body alive
  | outside c => exact .outside c
  | post context task => exact .post context task
  | postLater context => exact .postLater context
  | take takes => exact .take takes
  | answer a files backends running makes calm =>
    exact .answer a files backends running makes fun calm => by cases calm
  | finish running ended => exact .finish running ended
  | shutDown origin => exact .shutDown origin
  | freshContext => exact .freshContext
  | takePanic => exact .takePanic

theorem Reachable.start {mode : Mode} (workers : Nat) (files : FileTree) :
    Reachable mode (.start workers files) := ⟨workers, files, .refl⟩

theorem Reachable.steps {mode : Mode} {w after : World} (reached : Reachable mode w)
    (steps : Steps mode w after) : Reachable mode after := by
  obtain ⟨workers, files, before⟩ := reached
  exact ⟨workers, files, before.trans steps⟩

theorem Reachable.step {mode : Mode} {w after : World} (reached : Reachable mode w)
    (step : Step mode w after) : Reachable mode after := reached.steps (.single step)

theorem Reachable.any {mode : Mode} {w : World} (reached : Reachable mode w) :
    Reachable .any w := by
  obtain ⟨workers, files, steps⟩ := reached
  exact ⟨workers, files, Relation.ReflTransGen.mono (fun _ _ => Step.any) _ _ steps⟩

/-- What holds at the start and is kept by every step holds in every run. -/
theorem Reachable.induct {mode : Mode} {P : World → Prop}
    (start : ∀ workers files, P (.start workers files))
    (step : ∀ w after, Reachable mode w → P w → Step mode w after → P after)
    {w : World} (reached : Reachable mode w) : P w := by
  obtain ⟨workers, files, steps⟩ := reached
  induction steps with
  | refl => exact start workers files
  | tail before last ih => exact step _ _ ⟨workers, files, before⟩ ih last

/-! ## Runs by choice -/

/-- What is to happen next.  Jobs are told by the numbers of their operations. -/
inductive Choice where
  | body (context : Nat) (body : List Command)
  | task
  | take
  | answer (job : OperationId) (a : Answer)
  | finish (job : OperationId)
deriving Repr

namespace World

/-- Whether the callbacks that the next delivery calls return. -/
def callbacksReturn (w : World) : Bool :=
  match w.tasks.pop with
  | some (.deliver job outcome, rest) =>
    (exec (announce job outcome) (w.delivering job outcome rest)).1.isOk
  | _ => true

/-- The world after one calm step, if it can be made. -/
def choose (w : World) : Choice → Option World
  | .body context body =>
    if w.tasks.isOpen then some (w.runOn ⟨context⟩ [] (runAll [] body)).2 else none
  | .task => if w.callbacksReturn then w.runTask else none
  | .take => w.takeJob
  | .answer id a => do
    let job ← w.running.find? (·.id = id)
    let call ← job.transfer.call?
    if (job.transfer.feed a).isSome then some (w.answer job call a) else none
  | .finish id => do
    let job ← w.running.find? (·.id = id)
    let outcome ← job.transfer.outcome?
    some (w.finish job outcome)

/-- The world after some calm steps, if they can be made. -/
def follow (w : World) (choices : List Choice) : Option World := choices.foldlM choose w

theorem callbacksReturn_of_eq_true {w : World} (returns : w.callbacksReturn = true) :
    w.CallbacksReturn := by
  intro job outcome rest next
  rw [callbacksReturn, next] at returns
  rcases ends : (exec (announce job outcome) (w.delivering job outcome rest)).1 with message | _
  · dsimp only at returns
    rw [ends] at returns
    cases returns
  · rfl

theorem step_of_choose {mode : Mode} {w after : World} {choice : Choice}
    (chosen : w.choose choice = some after) : Step mode w after := by
  cases choice with
  | body context body =>
    obtain ⟨alive, rfl⟩ := by simpa [choose] using chosen
    exact .body ⟨context⟩ body alive
  | task =>
    rw [choose] at chosen
    split at chosen
    next returns => exact .task chosen fun _ => callbacksReturn_of_eq_true returns
    · cases chosen
  | take => exact .take chosen
  | answer id a =>
    simp only [choose, Option.bind_eq_bind, Option.bind_eq_some_iff] at chosen
    obtain ⟨job, found, call, makes, answered⟩ := chosen
    split at answered
    next goes_on =>
      obtain rfl := Option.some.inj answered
      refine .answer a w.files w.backends (List.mem_of_find?_eq_some found) makes fun _ none => ?_
      rw [none] at goes_on
      cases goes_on
    · cases answered
  | finish id =>
    simp only [choose, Option.bind_eq_bind, Option.bind_eq_some_iff] at chosen
    obtain ⟨job, found, outcome, ended, finished⟩ := chosen
    obtain rfl := Option.some.inj finished
    exact .finish (List.mem_of_find?_eq_some found) ended

theorem steps_of_follow {mode : Mode} {w after : World} {choices : List Choice}
    (followed : w.follow choices = some after) : Steps mode w after := by
  induction choices generalizing w with
  | nil =>
    obtain rfl := Option.some.inj followed
    exact .refl
  | cons choice rest ih =>
    rw [follow, List.foldlM_cons] at followed
    obtain ⟨next, chosen, followed⟩ := Option.bind_eq_some_iff.mp followed
    exact .head (step_of_choose chosen) (ih followed)

/-- A world that is chosen step by step from the start is reached by a run. -/
theorem reachable_of_follow {mode : Mode} {workers : Nat} {files : FileTree} {w : World}
    {choices : List Choice} (followed : (World.start workers files).follow choices = some w) :
    Reachable mode w := ⟨workers, files, steps_of_follow followed⟩

end World

/-! ## Sessions are runs -/

namespace World

theorem callBackend?_eq {w after : World} {b : BackendId} {call : Call} {a : Answer}
    (answered : w.callBackend? b call = some (a, after)) :
    ∃ files backends, after = { w with files, backends } := by
  unfold callBackend? at answered
  split at answered
  · cases answered
  · obtain ⟨-, rfl⟩ := Prod.mk.inj (Option.some.inj answered)
    exact ⟨_, _, rfl⟩
  · obtain ⟨-, rfl⟩ := Prod.mk.inj (Option.some.inj answered)
    exact ⟨_, _, rfl⟩

theorem step_of_release {w after : World} {job : Job} (running : job ∈ w.running)
    (released : w.release job = some after) : Step .any w after := by
  simp only [release, Option.bind_eq_bind, Option.bind_eq_some_iff, Prod.exists] at released
  obtain ⟨s, -, call, makes, a, changed, answered, made⟩ := released
  obtain rfl := Option.some.inj made
  obtain ⟨files, backends, rfl⟩ := callBackend?_eq answered
  exact .answer a files backends running makes fun calm => by cases calm

theorem step_of_finishJob {w after : World} (finished : w.finishJob = some after) :
    Step .any w after := by
  obtain ⟨job, running, found⟩ := List.exists_of_findSome?_eq_some finished
  obtain ⟨outcome, ended, rfl⟩ := Option.map_eq_some_iff.mp found
  exact .finish running ended

theorem step_of_answerFile {w after : World} (answered : w.answerFile = some after) :
    Step .any w after := by
  obtain ⟨job, found, released⟩ := Option.bind_eq_some_iff.mp answered
  exact step_of_release (List.mem_of_find?_eq_some found) released

theorem step_of_step {w after : World} (steps : w.step = some after) : Step .any w after := by
  -- the schedule of a session: tasks first, then jobs that have ended, then new ones
  simp only [step, Option.orElse_eq_orElse, Option.orElse_eq_or, Option.or_eq_some_iff] at steps
  rcases steps with runs | ⟨-, finished | ⟨-, takes | ⟨-, answered⟩⟩⟩
  · exact .task runs fun calm => by cases calm
  · exact step_of_finishJob finished
  · exact .take takes
  · exact step_of_answerFile answered

theorem steps_settle (fuel : Nat) (w : World) : Steps .any w (settle fuel w) := by
  induction fuel generalizing w with
  | zero => exact .refl
  | succ fuel ih =>
    rw [settle]
    split
    · exact .refl
    next after first => exact .head (step_of_step first) (ih after)

theorem steps_settled (w : World) : Steps .any w w.settled := steps_settle patience w

theorem mem_running_of_parked {w : World} {p : Parked} (parked : p ∈ w.parked) :
    p.job ∈ w.running := by
  simp only [World.parked, List.mem_mergeSort, List.mem_filterMap] at parked
  obtain ⟨job, running, listed⟩ := parked
  split at listed
  · obtain rfl := Option.some.inj listed
    exact running
  · cases listed

theorem steps_releaseAt {w after : World} {index : Nat}
    (released : w.releaseAt index = some after) :
    Steps .any w after := by
  unfold releaseAt at released
  split at released
  · cases released
  next p found =>
    obtain ⟨answered, freed, rfl⟩ := Option.map_eq_some_iff.mp released
    have running := mem_running_of_parked (List.mem_of_getElem? found)
    exact .head (step_of_release running freed) (steps_settled answered)

theorem steps_releaseAll (limit : Nat) (w : World) : Steps .any w (releaseAll limit w).2 := by
  induction limit generalizing w with
  | zero => exact .refl
  | succ limit ih =>
    rw [releaseAll]
    split
    · exact .refl
    next after released => exact (steps_releaseAt released).trans (ih after)

theorem steps_runCommand {w : World} (context : Option Nat) (c : Command)
    (alive : w.tasks.isOpen = true) : Steps .any w (w.runCommand context c).2 := by
  rcases context with _ | number
  · have first : Steps .any w (exec (c.run []) w).2 := .single (.outside c)
    unfold runCommand
    dsimp only
    rcases ends : (c.run []).run.run w with ⟨message | reply, after⟩
    · rw [exec, ends] at first
      exact first.trans (steps_settled after)
    · rw [exec, ends] at first
      exact first.trans (steps_settled after)
  · have first : Steps .any w (w.runOn ⟨number⟩ [] (c.run [])).2 :=
      .single (.command ⟨number⟩ c alive)
    unfold runCommand
    dsimp only
    split
    · split
      next ends =>
        rw [ends] at first
        exact first.trans (steps_settled _)
      next ends =>
        rw [ends] at first
        exact first.trans (steps_settled _)
    · exact .refl

theorem steps_blockOn {w : World} (body : List Command) (alive : w.tasks.isOpen = true) :
    Steps .any w (w.blockOn body).2 := by
  have ran : Steps .any w (w.freshContext.2.runOn w.freshContext.1 [] (runAll [] body)).2.settled :=
    .head .freshContext (.head (.body _ body alive) (steps_settled _))
  unfold blockOn
  dsimp only
  split
  · exact ran
  · exact ran.tail .takePanic

theorem steps_complete {w : World} (body : List Command) (ending : Ending)
    (timeout : Option Nat) (alive : w.tasks.isOpen = true) :
    Steps .any w (w.complete body ending timeout).2 := by
  have ran : Steps .any w (w.freshContext.2.runOn w.freshContext.1 [] (runAll [] body)).2 :=
    .head .freshContext (.single (.body _ body alive))
  have goes_on (later : Bool) (context : ContextId) (w' : World) (before : Steps .any w w') :
      Steps .any w (if later then w'.post (.later context) else w').settled.takePanic.2 := by
    refine (Relation.ReflTransGen.trans ?_ (steps_settled _)).tail .takePanic
    split
    · exact before.tail (.postLater context)
    · exact before
  unfold complete
  dsimp only
  split <;> exact goes_on _ _ _ ran

/-- Whatever a session is asked, its world goes on by steps. -/
theorem steps_respond {w : World} (request : Request) (alive : w.tasks.isOpen = true) :
    Steps .any w (w.respond request).2 := by
  cases request with
  | command context c => exact steps_runCommand context c alive
  | release index =>
    unfold respond
    dsimp only
    split
    · exact .refl
    next after released => exact steps_releaseAt released
  | releaseAll => exact steps_releaseAll releaseLimit w
  | status path => exact .refl
  | blockOn body => exact steps_blockOn body alive
  | complete body ending timeout => exact steps_complete body ending timeout alive

end World

end PinnedFile
