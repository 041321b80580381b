/-
  PinnedFile.Configuration

  How many workers a run has, and how its threads are called.
-/

import PinnedFile.Text.Quoted

namespace PinnedFile

/-- The number of workers and the name that those of all threads begin with. -/
structure Configuration where
  workers : Nat := 4
  name : String := "asyncfile"
deriving DecidableEq, Repr

namespace Configuration

/-- A configuration with another number of workers; without any it is refused. -/
def withWorkers (c : Configuration) (n : Nat) : Except String Configuration :=
  if n = 0 then .error "the blocking pool needs at least one thread"
  else .ok { c with workers := n }

/-- The configuration as one line of text. -/
def describe (c : Configuration) : String :=
  "RuntimeBuilder \x7b blocking_threads: " ++ toString c.workers
    ++ ", thread_name: " ++ Text.quoteString c.name ++ " \x7d"

/-- The name of the loop's thread. -/
def loopName (c : Configuration) : String := c.name ++ "-loop"

/-- The names of the workers' threads, in the order of text. -/
def workerNames (c : Configuration) : List String :=
  ((List.range c.workers).map fun i => c.name ++ "-blocking-" ++ toString i).mergeSort
    fun a b => a ≤ b

end Configuration

end PinnedFile
