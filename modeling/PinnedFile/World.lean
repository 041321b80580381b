/-
  PinnedFile.World

  Everything that a run can be in: the handles and files, the slots of the client, the
  operations that wait for a worker or are with one, the tasks that wait for the loop,
  and the history of what happened.

  A task runs on the loop, on one context; a job runs on a worker.  Nothing else happens,
  so a run is a sequence of tasks, of jobs being taken, and of native calls returning.
-/

import PinnedFile.FileTree
import PinnedFile.Queue
import PinnedFile.World.History

namespace PinnedFile

/-- What a handle's native calls go to. -/
inductive Backend where
  /-- A memory file, known by its label. -/
  | memory (label : Nat) (memory : Memory)
  /-- A file of the operating system. -/
  | file (descriptor : Descriptor)
deriving Repr

/-- What a slot holds. -/
structure SlotEntry where
  handle : Option HandleId := none
  /-- The handle whose read stream it holds. -/
  reader : Option HandleId := none
  /-- The handle whose write stream it holds. -/
  writer : Option HandleId := none
  /-- The memory file that was opened into it. -/
  native : Option BackendId := none
deriving DecidableEq, Repr

/-- The handle whose stream of a kind a slot holds. -/
def SlotEntry.stream (entry : SlotEntry) : StreamKind → Option HandleId
  | .read => entry.reader
  | .write => entry.writer

/-- What is left of the registrations of a stream that could not be taken down with its handle.
    They are not called any more, but what they hold is held for as long as the client has the
    stream. -/
structure Remnant where
  handle : HandleId
  kind : StreamKind
  holds : List HandleId
deriving Repr

/-- Whether the client has the stream in some slot. -/
def Remnant.isIn (r : Remnant) (slots : List (Slot × SlotEntry)) : Bool :=
  slots.any (·.2.stream r.kind = some r.handle)

/-- A task for the loop. -/
inductive Task where
  /-- Hands the outcome of an operation over. -/
  | deliver (job : Job) (outcome : Outcome)
  /-- What a client wants run on a context. -/
  | client (context : ContextId) (task : Callback Command)
  /-- Tells that a completion was put off until now. -/
  | later (context : ContextId)
deriving Repr

/-- Everything that a run can be in. -/
structure World where
  /-- The number of workers. -/
  workers : Nat
  files : FileTree
  backends : List Backend := []
  handles : List Handle := []
  /-- The slots in use, in order. -/
  slots : List (Slot × SlotEntry) := []
  /-- What waits for a worker. -/
  jobs : Queue Job := {}
  /-- What is with a worker. -/
  running : List Job := []
  /-- What waits for the loop. -/
  tasks : Queue Task := {}
  /-- The context of the running task. -/
  context : Option ContextId := none
  /-- The handles that the running task holds. -/
  held : List HandleId := []
  /-- Handles a reference to which was lost, with a worker's panic or with a shutdown. -/
  leaked : List HandleId := []
  /-- What is left of the registrations of streams that could not be taken down. -/
  remnants : List Remnant := []
  /-- The first panic of a task that nobody was told of. -/
  panicNote : Option String := none
  /-- The number of the next operation. -/
  nextOperation : OperationId := 0
  /-- The number of the next callback that waits for a write queue to drain. -/
  nextDrain : Nat := 0
  /-- The number of the next context. -/
  nextContext : Nat
  /-- What happened, the latest first. -/
  history : List Entry := []
deriving Repr

namespace World

/-- The number of contexts that a client knows by number. -/
def namedContexts : Nat := 3

/-- A world in which nothing has happened. -/
def start (workers : Nat) (files : FileTree) : World where
  workers := workers
  files := files
  nextContext := namedContexts

/-! ## History, handles and slots -/

/-- A world with `event` in its history. -/
def record (w : World) (event : Event) : World :=
  { w with history := ⟨w.context, event, w.handles⟩ :: w.history }

/-- A world with one handle changed. -/
def modifyHandle (w : World) (h : HandleId) (f : Handle → Handle) : World :=
  { w with handles := w.handles.modify h f }

/-- A world with a handle's read stream changed. -/
def modifyReader (w : World) (h : HandleId) (f : Reader → Reader) : World :=
  w.modifyHandle h fun s => { s with reader := s.reader.map f }

/-- A world with a handle's write stream changed. -/
def modifyWriter (w : World) (h : HandleId) (f : Writer → Writer) : World :=
  w.modifyHandle h fun s => { s with writer := s.writer.map f }

/-- The state of a handle's read stream. -/
def reader? (w : World) (h : HandleId) : Option Reader := w.handles[h]?.bind Handle.reader

/-- The state of a handle's write stream. -/
def writer? (w : World) (h : HandleId) : Option Writer := w.handles[h]?.bind Handle.writer

/-- What a slot holds. -/
def slot (w : World) (f : Slot) : SlotEntry := (w.slots.lookup f).getD {}

/-- The handles that a task holds. -/
def taskHolds : Task → List HandleId
  | .deliver job _ => job.holds
  | _ => []

/-- All references to handles. -/
def references (w : World) : List HandleId :=
  w.slots.filterMap (·.2.handle) ++ w.jobs.items.flatMap Job.holds
    ++ w.running.flatMap Job.holds ++ w.tasks.items.flatMap taskHolds
    ++ w.handles.flatMap Handle.holds ++ w.held ++ w.leaked ++ w.remnants.flatMap Remnant.holds

/-- Whether anything refers to a handle.  What nothing refers to is gone for good. -/
def isLive (w : World) (h : HandleId) : Bool := w.references.contains h

/-- Whether any handle that is not gone refers to a backend. -/
def isHeld (w : World) (b : BackendId) : Bool :=
  w.references.any fun h => w.handles[h]?.any (·.backend = b)

/-- A world in which the handles that nothing refers to have no registrations. -/
def sweepOnce (w : World) : World :=
  -- what is live is settled before the first registration goes
  let live := w.references
  { w with handles := w.handles.mapIdx fun h s => if live.contains h then s else s.unregistered }

/-- A world in which the handles that are gone have no registrations.  A registration that
    goes can take the last reference to a further handle with it, hence the rounds. -/
def sweep (w : World) : World := Nat.repeat sweepOnce w.handles.length w

/-- The handles in some slots. -/
def handlesIn (w : World) (slots : List Slot) : List HandleId :=
  slots.filterMap fun f => (w.slot f).handle

/-- A callback as it is stored. -/
def handler (w : World) (c : Callback Command) : Handler := ⟨c.tag, c.body, w.handlesIn c.keeps⟩

/-- A listener as it is registered. -/
def registration (w : World) (l : Listener Command) : Registration :=
  { listener := l, holds := w.handlesIn l.keeps }

/-- A sorted list with the entry of a slot replaced. -/
def replaceSlot (f : Slot) (entry : SlotEntry) :
    List (Slot × SlotEntry) → List (Slot × SlotEntry)
  | [] => [(f, entry)]
  | (g, other) :: rest =>
    if f < g then (f, entry) :: (g, other) :: rest
    else if f = g then (f, entry) :: rest
    else (g, other) :: replaceSlot f entry rest

/-- A world with what a slot holds replaced.  A handle that was held there only is gone, and so
    is what was left of a stream. -/
def setSlot (w : World) (f : Slot) (entry : SlotEntry) : World :=
  let slots := replaceSlot f entry w.slots
  { w with slots, remnants := w.remnants.filter (·.isIn slots) }.sweep

/-- A world with the handle in a slot replaced, its streams kept. -/
def setSlotHandle (w : World) (f : Slot) (h : Option HandleId) : World :=
  w.setSlot f { w.slot f with handle := h }

/-- What is left of the registrations of a handle if its stream of a kind cannot be taken down:
    the read stream would be the first, and nothing is done after the one that fails. -/
def remnantsOf (w : World) (h : HandleId) (kind : StreamKind) : List Remnant :=
  let kinds : List StreamKind := if kind = .read then [.read, .write] else [.write]
  let left := kinds.map fun kind =>
    Remnant.mk h kind ((w.handles[h]?.map (·.streamHolds kind)).getD [])
  left.filter (·.isIn w.slots)

/-- A world in which a handle was given up whose stream of a kind cannot be taken down. -/
def strand (w : World) (h : HandleId) (kind : StreamKind) : World :=
  { w with remnants := w.remnantsOf h kind ++ w.remnants }.modifyHandle h Handle.unregistered

/-! ## Queues -/

/-- A world with a job behind those that wait.  Once the workers are shut down it is
    dropped. -/
def submit (w : World) (job : Job) : World :=
  match w.jobs.push job with
  | (true, jobs) => { w with jobs := jobs }.record (.submitted job.id)
  | (false, _) => w

/-- A world with a task behind those that wait.  Once the loop is shut down it is
    dropped. -/
def post (w : World) (task : Task) : World := { w with tasks := (w.tasks.push task).2 }

/-- Shuts the loop and the workers down.  What waits is dropped, and the references that
    it holds are left behind unless this happens on the loop. -/
def shutDown (w : World) (origin : Origin) : World :=
  let (tasks, closedTasks) := w.tasks.shutDown
  let (jobs, closedJobs) := w.jobs.shutDown
  -- on the loop what is dropped gives up its references by itself
  let left := if origin = .loop then [] else tasks.flatMap taskHolds ++ jobs.flatMap Job.holds
  ({ w with tasks := closedTasks, jobs := closedJobs, leaked := left ++ w.leaked }.record
    .shutDown).sweep

end World

end PinnedFile
