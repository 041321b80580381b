/-
  PinnedFile.Memory

  A file held in memory, whose native calls can be told beforehand to move less than
  they are asked to, to report what they did not move, to fail, or to panic.
-/

import PinnedFile.Transfer

namespace PinnedFile

/-- How one native call on a memory file is to go. -/
inductive Directive where
  /-- As usual, but moving at most `limit` bytes and reporting `claim`, where given. -/
  | move (limit claim : Option Nat)
  | fail (error : IoError)
  | panic (message : String)
deriving DecidableEq, Repr

/-- The directives still to come, for each native call. -/
structure Directives where
  read : List Directive := []
  write : List Directive := []
  sync : List Directive := []
  close : List Directive := []
deriving DecidableEq, Repr

/-- New directives for the native calls that are given some. -/
structure Redirection where
  read : Option (List Directive) := none
  write : Option (List Directive) := none
  sync : Option (List Directive) := none
  close : Option (List Directive) := none
deriving DecidableEq, Repr

/-- The directives after a redirection. -/
def Directives.redirect (d : Directives) (r : Redirection) : Directives where
  read := r.read.getD d.read
  write := r.write.getD d.write
  sync := r.sync.getD d.sync
  close := r.close.getD d.close

/-- A file held in memory. -/
structure Memory where
  data : Bytes := []
  /-- The most bytes that one call moves. -/
  max : Option Nat := none
  directives : Directives := {}
deriving DecidableEq, Repr

namespace Memory

/-- The size no memory file can exceed: 1 MiB. -/
def sizeLimit : Nat := 0x100000

/-- The failure of a write beyond the largest size. -/
def beyondLimit : IoError := .custom .fileTooLarge "memory file limit"

/-- The first of some directives, the usual one if there is none, and the rest. -/
def nextDirective : List Directive → Directive × List Directive
  | [] => (.move none none, [])
  | d :: rest => (d, rest)

/-- The directive for a call, and the directives without it. -/
def takeDirective (d : Directives) : Call → Directive × Directives
  | .read .. => let (first, rest) := nextDirective d.read; (first, { d with read := rest })
  | .write .. => let (first, rest) := nextDirective d.write; (first, { d with write := rest })
  | .sync => let (first, rest) := nextDirective d.sync; (first, { d with sync := rest })
  | .close => let (first, rest) := nextDirective d.close; (first, { d with close := rest })

/-- `n`, or `limit` if that is less. -/
def atMost (limit : Option Nat) (n : Nat) : Nat :=
  match limit with
  | none => n
  | some k => min k n

/-- A call that goes as usual but for `limit` and `claim`. -/
def move (m : Memory) (limit claim : Option Nat) : Call → Answer × Memory
  | .read position length =>
    let bytes := m.data.window position (atMost limit (atMost m.max length))
    (.moved (claim.getD bytes.length) bytes, m)
  | .write data position =>
    let n := atMost limit (atMost m.max data.length)
    -- the size is that of what is moved, whatever is claimed
    if position + n > sizeLimit then (.failed beyondLimit, m)
    else (.moved (claim.getD n) [], { m with data := m.data.place position (data.take n) })
  | .sync | .close => (.moved (claim.getD 0) [], m)

/-- Performs a native call. -/
def perform (m : Memory) (call : Call) : Answer × Memory :=
  -- the directive is used up, however the call ends
  let (directive, rest) := takeDirective m.directives call
  let m := { m with directives := rest }
  match directive with
  | .move limit claim => m.move limit claim call
  | .fail error => (.failed error, m)
  | .panic message => (.panicked message, m)

/-- A memory file changed from outside, in what is given. -/
def adjusted (m : Memory) (data : Option Bytes) (max : Option (Option Nat))
    (directives : Redirection) : Memory where
  data := data.getD m.data
  max := max.getD m.max
  directives := m.directives.redirect directives

end Memory

end PinnedFile
