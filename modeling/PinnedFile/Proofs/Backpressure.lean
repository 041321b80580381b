/-
  PinnedFile.Proofs.Backpressure

  Backpressure bounds the queue of the destination.

  The paths lead to whatever they lead to, or to nothing; native calls answer whatever they
  like, failures and panics included; workers and the loop go on in any order, and all may be
  shut down between two tasks.  If both files open, the copying is in one of its stances all
  the while, and each of them is balanced.  If one does not, the program has panicked before
  there was anything to copy.
-/

import PinnedFile.Proofs.AfterShutdown.Moments
import PinnedFile.Proofs.Copying.Beginning

namespace PinnedFile

open Run

/-! ## Opening -/

namespace FileTree

/-- What opens is as it was asked for, and only a path that may be created changes the tree. -/
theorem openPath_ok_cases {t opened : FileTree} {path : Bytes} {read write create : Bool}
    {mode : Nat} {d : Descriptor}
    (opens : t.openPath path read write create mode = .ok (d, opened)) :
    (∃ id, d = ⟨id, read, write⟩) ∧ (create = false → opened = t) := by
  simp only [openPath, bind, Except.bind] at opens
  split at opens
  · cases opens
  · split at opens
    next creates =>
      split at opens
      · cases opens
      next found _ =>
        obtain ⟨rfl, -⟩ := Prod.mk.inj (Except.ok.inj opens)
        refine ⟨⟨_, rfl⟩, fun leaves => ?_⟩
        rw [creates] at leaves
        cases leaves
    · split at opens
      · cases opens
      · split at opens
        · cases opens
        · obtain ⟨rfl, rfl⟩ := Prod.mk.inj (Except.ok.inj opens)
          exact ⟨⟨_, rfl⟩, fun _ => rfl⟩

end FileTree

variable {w after : World}

/-- A task that panics leaves the context and gives up what it held. -/
theorem World.runOn_of_panics {α : Type} {context : ContextId} {holds : List HandleId}
    {code : Run α} {message : String}
    (panics : exec code (w.entered context holds) = (.error message, after)) :
    (w.runOn context holds code).2 =
      ({ after with context := w.context, held := w.held } : World).sweep.notePanic message := by
  have ends : code.run.run { w with context := some context, held := holds } =
      (.error message, after) := panics
  rw [World.runOn, ends]

namespace Copying

variable {files : FileTree} {sourcePath destinationPath : Bytes}

theorem exec_require_error {what : String} {f : Slot} {options : OpenOptions} {sink : Sink}
    {path : Bytes} {error : FileError} (refused : w.openPath f options sink path = .error error) :
    exec ((Command.require what (.openFile f options sink (.path path))).run []) w =
      (.error (requirementText what error), w) := by
  have asked : exec ((Command.openFile f options sink (.path path)).run []) w =
      (.ok (.result (.error error)), w) := by
    rw [Command.run, Run.openFile, ask, exec_map, exec_request_error refused]
    rfl
  rw [Command.run, exec_bind_ok asked]
  rfl

/-- The first of some commands, when it panics. -/
theorem exec_first_error {c : Command} {rest : List Command} {message : String}
    (panics : exec (c.run []) w = (.error message, after)) :
    exec (runAll [] (c :: rest)) w = (.error message, after) := by
  rw [runAll]
  exact exec_bind_error panics

/-! ## A program that gives up -/

/-- The program has ended before there were any streams. -/
structure GaveUp (w : World) : Prop where
  jobs : w.jobs.items = []
  running : w.running = []
  tasks : w.tasks.items = []
  handles : ∀ s ∈ w.handles, s.reader = none ∧ IsUnwritten s
  history : ∀ e ∈ w.history, ∀ s ∈ e.handles, IsUnwritten s

theorem GaveUp.sweep (gaveUp : GaveUp w) : w.sweep = w := by
  refine World.sweep_of_swept fun h s known gone => ?_
  obtain ⟨reader, -, writer⟩ := gaveUp.handles s (List.mem_of_getElem? known)
  rw [Handle.isBare, reader, writer]
  rfl

theorem GaveUp.record (gaveUp : GaveUp w) (event : Event) : GaveUp (w.record event) :=
  { gaveUp with
    history := fun e listed => by
      rcases List.mem_cons.mp listed with rfl | before
      · exact fun s listed => (gaveUp.handles s listed).2
      · exact gaveUp.history e before }

theorem gaveUp_of_panics {message : String}
    (panics : exec (runAll [] (program sourcePath destinationPath))
      ((World.start workers files).freshContext.2.entered programContext []) =
      (.error message, after)) (gaveUp : GaveUp after) :
    GaveUp (begin files sourcePath destinationPath) := by
  have left : GaveUp { after with context := none, held := [] } := { gaveUp with }
  have here : begin files sourcePath destinationPath =
      ({ after with context := none, held := [] } : World).notePanic message :=
    (World.runOn_of_panics panics).trans (congrArg (·.notePanic message) left.sweep)
  rw [here]
  exact { left with }

theorem gaveUp_entered :
    GaveUp ((World.start workers files).freshContext.2.entered programContext []) where
  jobs := rfl
  running := rfl
  tasks := rfl
  handles := List.forall_mem_nil _
  history := List.forall_mem_nil _

theorem gaveUp_sourceOpen {a : NodeId} :
    GaveUp (prepared files [.file ⟨a, true, false⟩] [openSource sourcePath none]
      [(source, { handle := some sourceHandle })] []) where
  jobs := rfl
  running := rfl
  tasks := rfl
  handles := List.forall_mem_singleton.mpr ⟨rfl, rfl, rfl⟩
  history := List.forall_mem_nil _

theorem exec_open_source_error {what : String} {error : IoError}
    (refused : files.openPath sourcePath true false false OpenOptions.defaultMode =
      .error error) :
    exec ((Command.require what (.openFile source sourceOptions .log (.path sourcePath))).run [])
      ((World.start workers files).freshContext.2.entered programContext []) =
      (.error (requirementText what (.openFailure sourcePath error)),
        (World.start workers files).freshContext.2.entered programContext []) :=
  exec_require_error (World.openPath_error rfl rfl refused)

theorem exec_open_destination_error {a : NodeId} {what : String} {error : IoError}
    (refused : files.openPath destinationPath false true true OpenOptions.defaultMode =
      .error error) {history : List Entry} :
    exec ((Command.require what
        (.openFile destination destinationOptions .log (.path destinationPath))).run [])
      (prepared files [.file ⟨a, true, false⟩] [openSource sourcePath none]
        [(source, { handle := some sourceHandle })] history) =
      (.error (requirementText what (.openFailure destinationPath error)),
        prepared files [.file ⟨a, true, false⟩] [openSource sourcePath none]
          [(source, { handle := some sourceHandle })] history) :=
  exec_require_error (World.openPath_error rfl rfl refused)

/-- Both files open, or the program gives up. -/
theorem canOpen_or_gaveUp (files : FileTree) (sourcePath destinationPath : Bytes) :
    (∃ opened a b, CanOpen files sourcePath destinationPath opened a b) ∨
      GaveUp (begin files sourcePath destinationPath) := by
  rcases source : files.openPath sourcePath true false false OpenOptions.defaultMode with
    error | ⟨d, found⟩
  · -- the first command panics
    exact .inr (gaveUp_of_panics (exec_first_error (exec_open_source_error source)) gaveUp_entered)
  · obtain ⟨⟨a, rfl⟩, same⟩ := FileTree.openPath_ok_cases source
    obtain rfl := same rfl
    rcases destination : found.openPath destinationPath false true true
      OpenOptions.defaultMode with error | ⟨d, opened⟩
    · -- the second one does
      exact .inr (gaveUp_of_panics ((exec_first (exec_open_source source)).trans
        (exec_first_error (exec_open_destination_error destination))) (gaveUp_sourceOpen.record _))
    · obtain ⟨⟨b, rfl⟩, -⟩ := FileTree.openPath_ok_cases destination
      exact .inl ⟨opened, a, b, source, destination⟩

/-! ## Steps -/

/-- One step of the copying, whatever native calls answer, or the shutdown that ends it. -/
inductive Continues : World → World → Prop where
  /-- The loop runs the next task. -/
  | task {w after : World} (runs : w.runTask = some after) : Continues w after
  /-- A free worker takes the next job. -/
  | take {w after : World} (takes : w.takeJob = some after) : Continues w after
  /-- A native call returns, or panics, and the backends and files are then what they are. -/
  | answer {w : World} {job : Job} {call : Call} (a : Answer) (files : FileTree)
      (backends : List Backend) (running : job ∈ w.running)
      (makes : job.transfer.call? = some call) :
      Continues w ({ w with files, backends }.answer job call a)
  /-- A job that has come to its end is handed to the loop. -/
  | finish {w : World} {job : Job} {outcome : Outcome} (running : job ∈ w.running)
      (ended : job.transfer.outcome? = some outcome) : Continues w (w.finish job outcome)
  | shutDown {w : World} (origin : Origin) : Continues w (w.shutDown origin)

theorem Continues.step (continues : Continues w after) : Step .any w after := by
  cases continues with
  | task runs => exact .task runs nofun
  | take takes => exact .take takes
  | answer a files backends running makes => exact .answer a files backends running makes nofun
  | finish running ended => exact .finish running ended
  | shutDown origin => exact .shutDown origin

/-- A program that has given up does nothing any more. -/
theorem GaveUp.continues (gaveUp : GaveUp w) (continues : Continues w after) : GaveUp after := by
  -- nothing waits in a queue or is under way, so that all that is left is a shutdown
  cases continues with
  | task runs =>
    obtain ⟨task, rest, next, -⟩ := World.exists_task_of_runTask runs
    have none := congrArg Queue.items (Queue.pop_eq_some_iff.mp next).1
    rw [gaveUp.tasks] at none
    cases none
  | take takes =>
    obtain ⟨job, rest, next, -⟩ := World.exists_takeJob takes
    have none := congrArg Queue.items (Queue.pop_eq_some_iff.mp next).1
    rw [gaveUp.jobs] at none
    cases none
  | answer a files backends running makes =>
    rw [gaveUp.running] at running
    cases running
  | finish running ended =>
    rw [gaveUp.running] at running
    cases running
  | shutDown origin =>
    have closed : GaveUp ((w.closeWorkers origin).closeLoop origin) :=
      { gaveUp with jobs := rfl, tasks := rfl }
    have noted := closed.record .shutDown
    rw [World.shutDown_eq, noted.sweep]
    exact noted

/-! ## Stances -/

variable {setting : Setting} {intake : Intake} {outlet : Outlet}

/-- A shutdown leaves the streams as they are. -/
theorem Stands.shutDown (stands : Stands setting intake outlet [] w)
    (troubled : setting.isSmooth = false) (origin : Origin) :
    Stands setting intake outlet [] (w.shutDown origin) := by
  -- jobs and tasks are accounted for only where all goes well
  have never {P : Prop} (smooth : setting.isSmooth = true) : P :=
    absurd smooth (Bool.eq_false_iff.mp troubled)
  have closed : Stands setting intake outlet [] ((w.closeWorkers origin).closeLoop origin) :=
    { stands with
      jobs := never
      tasks := never
      deliveries := List.forall_mem_nil _ }
  have noted := closed.recordAside (e := .shutDown) trivial never
  rw [World.shutDown_eq, noted.sweep]
  exact noted

/-- A world that the copying comes to between two steps, once both files are open. -/
structure Paced (w : World) : Prop where
  reached : Reachable .any w
  stands : ∃ setting intake outlet, setting.isSmooth = false ∧
    Between setting.isSmooth intake outlet ∧ Stands setting intake outlet [] w

theorem Paced.continues (paced : Paced w) (continues : Continues w after) : Paced after where
  reached := paced.reached.step continues.step
  stands := by
    obtain ⟨setting, intake, outlet, troubled, between, stands⟩ := paced.stands
    cases continues with
    | task runs =>
      have well (job : Job) (outcome : Outcome) (rest : Queue Task)
          (next : w.tasks.pop = some (.deliver job outcome, rest)) : setting.GoesWell outcome :=
        fun smooth => absurd smooth (Bool.eq_false_iff.mp troubled)
      obtain ⟨intake', outlet', between', stands'⟩ :=
        stands.runTask paced.reached between runs well
      exact ⟨setting, intake', outlet', troubled, between', stands'⟩
    | take takes => exact ⟨setting, intake, outlet, troubled, between, stands.takeJob takes⟩
    | @answer job call a files backends running makes =>
      -- native calls may leave any backends behind; the stance then speaks of those
      have changed : Stands { setting with backends } intake outlet [] { w with backends } :=
        { stands with backends := rfl }
      refine ⟨_, intake, outlet, ?_, ?_, changed.answer files job call a⟩
      · exact troubled
      · exact between
    | @finish job outcome running ended =>
      exact ⟨setting, intake, outlet, troubled, between, stands.finish job outcome⟩
    | shutDown origin =>
      exact ⟨setting, intake, outlet, troubled, between, stands.shutDown troubled origin⟩

theorem paced_begin {opened : FileTree} {a b : NodeId}
    (opens : CanOpen files sourcePath destinationPath opened a b) :
    Paced (begin files sourcePath destinationPath) where
  reached := ((Reachable.start workers files).step .freshContext).step step_begin.any
  stands := ⟨beginning false opened a b, _, _, rfl, .reading, stands_begin opens⟩

/-! ## Backpressure -/

/-- The source is paused. -/
def sourceIsPaused (w : World) : Bool := (w.reader? sourceHandle).any Reader.paused

/-- A callback waits for the queue of the destination to drain. -/
def drainIsAwaited (w : World) : Bool :=
  (w.writer? destinationHandle).any fun v => v.drain.isSome

theorem Stands.sourceIsPaused (stands : Stands setting intake outlet [] w) :
    sourceIsPaused w = intake.paused := by
  obtain ⟨r, stream, reader⟩ := stands.reader?
  rw [Copying.sourceIsPaused, stream]
  exact reader.paused

theorem Stands.drainIsAwaited (stands : Stands setting intake outlet [] w) :
    drainIsAwaited w = outlet.waits := by
  obtain ⟨v, stream, writer⟩ := stands.writer?
  have drain := congrArg Option.isSome writer.drain
  rw [Option.isSome_map] at drain
  rw [Copying.drainIsAwaited, stream, Option.any_some, drain]
  cases outlet.waits <;> rfl

/-- At every entry of the history and between any two tasks the copying is balanced, and between
    two tasks the source is paused as long as a callback waits for the queue to drain. -/
structure KeepsPace (w : World) : Prop where
  balanced : Balanced w.handles
  noted : ∀ e ∈ w.history, Balanced e.handles
  paused : sourceIsPaused w = drainIsAwaited w

theorem Paced.keepsPace (paced : Paced w) : KeepsPace w := by
  obtain ⟨setting, intake, outlet, -, between, stands⟩ := paced.stands
  refine ⟨stands.balanced_handles, stands.balanced, ?_⟩
  rw [stands.sourceIsPaused, stands.drainIsAwaited]
  cases between <;> rfl

theorem GaveUp.keepsPace (gaveUp : GaveUp w) : KeepsPace w := by
  have unwritten (s : Handle) (listed : s ∈ w.handles) : IsUnwritten s :=
    (gaveUp.handles s listed).2
  refine ⟨balanced_of_unwritten unwritten,
    fun e listed => balanced_of_unwritten (gaveUp.history e listed), ?_⟩
  have noReader : w.reader? sourceHandle = none :=
    Option.bind_eq_none_iff.mpr fun s known => (gaveUp.handles s (List.mem_of_getElem? known)).1
  have noWriter : w.writer? destinationHandle = none :=
    Option.bind_eq_none_iff.mpr fun s known => (unwritten s (List.mem_of_getElem? known)).writer
  rw [sourceIsPaused, drainIsAwaited, noReader, noWriter]
  rfl

/-! ## Sessions -/

theorem continues_of_release {job : Job} (running : job ∈ w.running)
    (released : w.release job = some after) : Continues w after := by
  simp only [World.release, Option.bind_eq_bind, Option.bind_eq_some_iff, Prod.exists] at released
  obtain ⟨s, -, call, makes, a, changed, answered, made⟩ := released
  obtain rfl := Option.some.inj made
  obtain ⟨files, backends, rfl⟩ := World.callBackend?_eq answered
  exact .answer a files backends running makes

/-- A session that copies makes such steps. -/
theorem continues_of_step (steps : w.step = some after) : Continues w after := by
  simp only [World.step, Option.orElse_eq_orElse, Option.orElse_eq_or, Option.or_eq_some_iff]
    at steps
  rcases steps with runs | ⟨-, finished | ⟨-, takes | ⟨-, answered⟩⟩⟩
  · exact .task runs
  · obtain ⟨job, running, found⟩ := List.exists_of_findSome?_eq_some finished
    obtain ⟨outcome, ended, rfl⟩ := Option.map_eq_some_iff.mp found
    exact .finish running ended
  · exact .take takes
  · obtain ⟨job, found, released⟩ := Option.bind_eq_some_iff.mp answered
    exact continues_of_release (List.mem_of_find?_eq_some found) released

theorem continues_settle (fuel : Nat) (w : World) :
    Relation.ReflTransGen Continues w (World.settle fuel w) := by
  induction fuel generalizing w with
  | zero => exact .refl
  | succ fuel ih =>
    rw [World.settle]
    split
    · exact .refl
    next after first => exact .head (continues_of_step first) (ih after)

/-! ## All runs -/

/-- Whatever the paths lead to, whatever native calls answer and in whatever order the copying
    goes on, it keeps pace. -/
theorem backpressure_bounds_queue
    (steps : Relation.ReflTransGen Continues (begin files sourcePath destinationPath) w) :
    KeepsPace w := by
  rcases canOpen_or_gaveUp files sourcePath destinationPath with ⟨opened, a, b, opens⟩ | gaveUp
  · have paced : Paced w := by
      induction steps with
      | refl => exact paced_begin opens
      | tail before last ih => exact ih.continues last
    exact paced.keepsPace
  · have rests : GaveUp w := by
      induction steps with
      | refl => exact gaveUp
      | tail before last ih => exact ih.continues last
    exact rests.keepsPace

/-- A directory with a file of three bytes and a device that is full. -/
def fullDestination : FileTree :=
  ⟨[.directory [([97], 1), ([98], 2)], .file 0o644 [1, 2, 3], .full], [0]⟩

/-- The write fails, and that is told; then the source ends, and both files are closed. -/
theorem backpressure_bounds_queue_of_failed_write : ∃ w,
    Relation.ReflTransGen Continues (begin fullDestination [97] [98]) w ∧
    (errors w).length = 1 ∧ isDone w = true ∧ KeepsPace w := by
  have steps := continues_settle 40 (begin fullDestination [97] [98])
  have stands : (errors (World.settle 40 (begin fullDestination [97] [98]))).length = 1 ∧
      isDone (World.settle 40 (begin fullDestination [97] [98])) = true := by decide +kernel
  exact ⟨_, steps, stands.1, stands.2, backpressure_bounds_queue steps⟩

end Copying

end PinnedFile
