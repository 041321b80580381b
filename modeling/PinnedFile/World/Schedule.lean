/-
  PinnedFile.World.Schedule

  How a run goes on: the loop runs the next task, a free worker takes the next job, a
  native call returns, and a job that has come to its end is handed to the loop.  Each of
  these is one step; `settle` makes steps until all that is left are calls on memory
  files, which return when they are released.
-/

import PinnedFile.World.Delivery

namespace PinnedFile

namespace World

/-! ## Tasks -/

/-- A world that keeps the text of a panic, unless it keeps one already. -/
def notePanic (w : World) (message : String) : World :=
  { w with panicNote := some (w.panicNote.getD message) }

/-- Runs code as a task on a context, `holds` being the handles that the task holds.  A
    panic ends the task and nothing else: the context is left, and its text is kept. -/
def runOn {α : Type} (context : ContextId) (holds : List HandleId) (code : Run α)
    (w : World) : Option α × World :=
  let (result, after) := code.run.run { w with context := some context, held := holds }
  -- however the code has ended, the context is left and what it held is given up
  let after := { after with context := w.context, held := w.held }.sweep
  match result with
  | .ok a => (some a, after)
  | .error message => (none, after.notePanic message)

/-- The context that a task runs on. -/
def taskContext (w : World) : Task → ContextId
  | .deliver job _ => (w.handles[job.handle]?.map Handle.owner).getD ⟨0⟩
  | .client context _ => context
  | .later context => context

/-- What a task does. -/
def taskCode : Task → Run Unit
  | .deliver job outcome => Run.deliver job outcome
  | .client _ task => do
    Run.note (.started task.tag)
    runAll [] task.body
  | .later _ => Run.note .later

/-- Runs the next task. -/
def runTask (w : World) : Option World :=
  match w.tasks.pop with
  | none => none
  | some (task, tasks) =>
    some (runOn (w.taskContext task) (taskHolds task) (taskCode task) { w with tasks := tasks }).2

/-! ## Jobs -/

/-- A free worker takes the next job. -/
def takeJob (w : World) : Option World :=
  if w.running.length < w.workers then
    match w.jobs.pop with
    | none => none
    | some (job, jobs) =>
      some ({ w with jobs := jobs, running := w.running ++ [job] }.record (.taken job.id))
  else none

/-- A world in which no worker has a job any more. -/
def withoutJob (w : World) (job : Job) : World :=
  { w with running := w.running.eraseP (·.id = job.id) }

/-- A world in which the references that a job holds are lost.  They can be given up on
    the loop only. -/
def leak (w : World) (job : Job) : World := { w with leaked := job.holds ++ w.leaked }

/-- The native call of a job returns with `answer`, or takes the job with it by a panic. -/
def answer (w : World) (job : Job) (call : Call) (a : Answer) : World :=
  let w := (w.withoutJob job).record (.native job.id job.handle call a)
  match job.transfer.feed a with
  | none => w.leak job
  | some transfer => { w with running := w.running ++ [{ job with transfer := transfer }] }

/-- A job that has come to an end is handed to the loop.  If that is shut down, the job is
    dropped where it is. -/
def finish (w : World) (job : Job) (outcome : Outcome) : World :=
  let w := w.withoutJob job
  if w.tasks.isOpen then w.post (.deliver job outcome) else w.leak job

/-- The first job that has come to an end is handed to the loop. -/
def finishJob (w : World) : Option World :=
  w.running.findSome? fun job => job.transfer.outcome?.map fun outcome => w.finish job outcome

/-! ## Backends -/

/-- What a backend answers to a call, and the world after it. -/
def callBackend? (w : World) (b : BackendId) (call : Call) : Option (Answer × World) :=
  match w.backends[b]? with
  | none => none
  | some (.memory label m) =>
    let (a, m) := m.perform call
    some (a, { w with backends := w.backends.set b (.memory label m) })
  | some (.file descriptor) =>
    let (a, files) := w.files.perform descriptor call
    some (a, { w with files := files })

/-- Lets the native call of a job go through. -/
def release (w : World) (job : Job) : Option World := do
  let s ← w.handles[job.handle]?
  let call ← job.transfer.call?
  let (a, w) ← w.callBackend? s.backend call
  some (w.answer job call a)

/-- The label of a job's memory file. -/
def label? (w : World) (h : HandleId) : Option Nat := do
  let s ← w.handles[h]?
  match ← w.backends[s.backend]? with
  | .memory label _ => some label
  | .file _ => none

/-- The first job whose call is on a file of the operating system returns. -/
def answerFile (w : World) : Option World :=
  (w.running.find? fun job => (w.label? job.handle).isNone).bind w.release

/-! ## Runs -/

/-- The next step that needs no release. -/
def step (w : World) : Option World :=
  -- the loop goes first, so that completions are told before further jobs are taken
  w.runTask <|> w.finishJob <|> w.takeJob <|> w.answerFile

/-- Makes steps until there is none to make, at most `fuel`. -/
def settle : Nat → World → World
  | 0, w => w
  | fuel + 1, w =>
    match w.step with
    | none => w
    | some w => settle fuel w

end World

end PinnedFile
