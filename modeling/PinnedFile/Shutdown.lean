/-
  PinnedFile.Shutdown

  Runs that end with a shutdown while there is still something to do.  Nothing that
  waits at that moment is done, and nothing that is wanted afterwards; what is under way
  ends, and a task that is under way can go on making requests, of which none is
  completed.
-/

import PinnedFile.Session

namespace PinnedFile

/-- A run in which the shutdown comes while a first task is under way. -/
structure ShutdownRun where
  workers : Nat
  /-- The number of tasks that wait meanwhile. -/
  queued : Nat
  origin : Origin
  /-- Whether the first task makes requests after it has shut all down. -/
  lateRequests : Bool
deriving DecidableEq, Repr

namespace ShutdownRun

/-- The context that everything is run on. -/
def context : ContextId := ⟨0⟩

/-- A callback that does nothing but to be seen. -/
def callback (tag : String) : Callback Command := { tag, body := [] }

/-- Opens a memory file into a slot. -/
def openMemory (f : Slot) : Command :=
  .openFile f { read := true, write := true } (.recorder f) (.memory (.bytes []) none {})

/-- What is asked of a file when all is shut down. -/
def requests : List Command :=
  [openMemory 0,
   .write 0 (.bytes "abc".toUTF8.toList) 0 (callback "written"),
   .flush 0 (some (callback "flushed")),
   .close 0 (some (callback "closed")),
   .flush 0 none]

/-- The task that is under way. -/
def first (r : ShutdownRun) : Callback Command where
  tag := "first"
  body := .shutDown r.origin :: (if r.origin = .loop && r.lateRequests then requests else [])

/-- A task that does nothing but to be seen. -/
def task (tag : String) : Task := .client context (callback tag)

/-- Whether a request was accepted. -/
def accepted : Reply → String
  | .result (.ok _) => "true"
  | _ => "false"

/-- The line by which an event is seen in the log; `w` tells of the state of the file. -/
def line (w : World) : Event → Option String
  | .started tag => some tag
  | .handled _ _ tag _ => some tag
  | .ran (.shutDown .loop) _ => some "dropped on loop"
  | .ran (.write ..) reply => some ("write " ++ accepted reply)
  | .ran (.close ..) reply => some ("close " ++ accepted reply)
  | .ran (.flush _ (some _)) reply => some ("flush " ++ accepted reply)
  | .ran (.flush f none) reply =>
    ((w.slot f).handle.bind fun h => w.handles[h]?).map fun s =>
      "flush " ++ accepted reply ++ " out " ++ toString s.outstanding
        ++ " closed " ++ Text.flag s.closed
  | _ => none

/-- The lines of what happened since `before`. -/
def lines (before w : World) : List String :=
  (w.history.take (w.history.length - before.history.length)).reverse.filterMap
    fun entry => line w entry.event

/-- A world in which a flush is with a worker. -/
def withFlush (w : World) : World :=
  (w.runOn context [] (runAll [] [openMemory 1, .flush 1 (some (callback "flushed"))])).2.settled

/-- The log of the run: what the first task does and, if there were any, what comes after
    the shutdown. -/
def log (r : ShutdownRun) : List String :=
  let w := World.start r.workers .initial
  let w := if r.origin = .worker then withFlush w else w
  let waiting := (List.range r.queued).map fun i => task ("queued " ++ toString i)
  let ready := (.client context r.first :: waiting).foldl World.post w
  let done := ready.runTask.getD ready
  let after := ((done.post (task "late")).settled.releaseAll World.releaseLimit).2
  lines ready done ++ ["first ends"] ++ lines done after
    ++ (if r.origin = .worker then ["dropped on pool"] else [])

/-- How many of as many flushes as there are workers succeed, all being with a worker at
    the same time. -/
def flushes (workers : Nat) : Nat :=
  let body := openMemory 0 :: List.replicate workers (.flush 0 (some (callback "flushed")))
  let w := ((World.start workers .initial).runOn context [] (runAll [] body)).2.settled
  let (_, after) := w.releaseAll w.parked.length
  (after.history.filter fun entry =>
    match entry.event with
    | .handled _ .flush _ (.ok _) => true
    | _ => false).length

end ShutdownRun

end PinnedFile
