/-
  PinnedFile.Session

  A run that is driven from outside, one request after the other.  After each request
  the loop and the workers do all they can without a memory call being released; then
  the next request follows.  So the order in which things happen is settled by the
  requests alone.
-/

import PinnedFile.Text.Span
import PinnedFile.World.Schedule

namespace PinnedFile

/-- How the task that is to complete something goes about it. -/
inductive Ending where
  | now
  /-- It completes twice. -/
  | twice
  /-- It has another task complete. -/
  | later
  /-- It keeps what it could complete with. -/
  | never
  /-- It drops what it could complete with. -/
  | drop
deriving DecidableEq, Repr

/-- A request from outside. -/
inductive Request where
  /-- Runs one command as a task on a context; without a context, outside the loop. -/
  | command (context : Option Nat) (c : Command)
  /-- Releases the parked call of a number. -/
  | release (index : Nat)
  /-- Releases the first parked call until there is none. -/
  | releaseAll
  /-- Asks what is at a path. -/
  | status (path : Bytes)
  /-- Runs commands on a new context and waits for them. -/
  | blockOn (body : List Command)
  /-- Runs commands on a new context and waits for a completion, for so many
      milliseconds at most. -/
  | complete (body : List Command) (ending : Ending) (timeout : Option Nat)
deriving Repr

/-- The answer to a request. -/
inductive Response where
  | reply (r : Reply)
  /-- The task has panicked. -/
  | panicked
  | released (found : Bool)
  | releasedAll (count : Nat)
  | status (s : FileStatus)
  /-- The wait has ended, with success or with a panic of a given text. -/
  | waited (result : Except String Unit)
deriving Repr

/-- A native call on a memory file that waits to be released. -/
structure Parked where
  /-- The label of the memory file. -/
  label : Nat
  call : Call
  job : Job
deriving Repr

namespace Call

/-- The name of a native call. -/
def name : Call → String
  | .read .. => "read"
  | .write .. => "write"
  | .sync => "sync"
  | .close => "close"

/-- Where a native call begins. -/
def position : Call → Nat
  | .read position _ => position
  | .write _ position => position
  | .sync | .close => 0

/-- How many bytes a native call asks for. -/
def length : Call → Nat
  | .read _ length => length
  | .write data _ => data.length
  | .sync | .close => 0

/-- The bytes that a native call is given. -/
def data : Call → Bytes
  | .write data _ => data
  | _ => []

end Call

/-- The order of parked calls: by label, name, position, length and data. -/
def Parked.order (a b : Parked) : Ordering :=
  (compare a.label b.label).then <| (compare a.call.name b.call.name).then <|
    (compare a.call.position b.call.position).then <|
      (compare a.call.length b.call.length).then (compare a.call.data b.call.data)

namespace World

/-- The most steps between two requests. -/
def patience : Nat := 1000000

/-- The most calls that one request releases. -/
def releaseLimit : Nat := 2000

/-- The wait for a completion that is not given a time, in milliseconds. -/
def defaultTimeout : Nat := 10000

/-- A world in which everything has happened that can. -/
def settled (w : World) : World := w.settle patience

/-- The parked calls, in order. -/
def parked (w : World) : List Parked :=
  let calls := w.running.filterMap fun job =>
    match w.label? job.handle, job.transfer.call? with
    | some label, some call => some (Parked.mk label call job)
    | _, _ => none
  calls.mergeSort fun a b => (a.order b).isLE

/-- Releases the parked call of a number. -/
def releaseAt (w : World) (index : Nat) : Option World :=
  match w.parked[index]? with
  | none => none
  | some p => (w.release p.job).map settled

/-- Releases the first parked call, at most `limit` times, and counts. -/
def releaseAll : Nat → World → Nat × World
  | 0, w => (0, w)
  | limit + 1, w =>
    match w.releaseAt 0 with
    | none => (0, w)
    | some w =>
      let (count, w) := releaseAll limit w
      (count + 1, w)

/-- A new context. -/
def freshContext (w : World) : ContextId × World :=
  (⟨w.nextContext⟩, { w with nextContext := w.nextContext + 1 })

/-- The text of a kept panic as a wait tells it, and the world that keeps it no more. -/
def takePanic (w : World) : Option String × World :=
  (w.panicNote.map ("task panicked on the event loop: " ++ ·), { w with panicNote := none })

/-- Runs commands on a new context and waits for them.  Only their own panic ends the
    wait badly; the text told then is that of the first panic kept. -/
def blockOn (w : World) (body : List Command) : Except String Unit × World :=
  let (context, w) := w.freshContext
  let (result, w) := w.runOn context [] (runAll [] body)
  let w := w.settled
  match result with
  -- a panic that other tasks left behind is kept for the next wait
  | some () => (.ok (), w)
  | none =>
    let (text, w) := w.takePanic
    (.error (text.getD "block_on task did not produce a result"), w)

/-- How a wait for a completion ends if no panic was kept. -/
def waitResult (ending : Ending) (timeout : Option Nat) : Except String Unit :=
  match ending with
  | .now | .twice | .later => .ok ()
  | .never =>
    .error ("run_until_complete timed out after " ++ Text.span (timeout.getD defaultTimeout))
  | .drop => .error "completion handle dropped before completing did not produce a result"

/-- Runs commands on a new context and waits for a completion.  A panic kept by then ends
    the wait badly, whosever it was. -/
def complete (w : World) (body : List Command) (ending : Ending) (timeout : Option Nat) :
    Except String Unit × World :=
  let (context, w) := w.freshContext
  let (result, w) := w.runOn context [] (runAll [] body)
  let w := if result.isSome && ending = .later then w.post (.later context) else w
  let (text, w) := w.settled.takePanic
  match text with
  | some text => (.error text, w)
  | none => (waitResult ending timeout, w)

/-- Runs one command. -/
def runCommand (w : World) (context : Option Nat) (c : Command) : Response × World :=
  match context with
  | none =>
    match (c.run []).run.run w with
    | (.ok reply, w) => (.reply reply, w.settled)
    | (.error _, w) => (.panicked, w.settled)
  | some number =>
    if number < namedContexts then
      match w.runOn ⟨number⟩ [] (c.run []) with
      | (some reply, w) => (.reply reply, w.settled)
      | (none, w) => (.panicked, w.settled)
    else (.reply (.missing .context), w)

/-- Answers a request. -/
def respond (w : World) : Request → Response × World
  | .command context c => w.runCommand context c
  | .release index =>
    match w.releaseAt index with
    | none => (.released false, w)
    | some w => (.released true, w)
  | .releaseAll =>
    let (count, w) := w.releaseAll releaseLimit
    (.releasedAll count, w)
  | .status path => (.status (w.files.status path), w)
  | .blockOn body =>
    let (result, w) := w.blockOn body
    (.waited result, w)
  | .complete body ending timeout =>
    let (result, w) := w.complete body ending timeout
    (.waited result, w)

end World

end PinnedFile
