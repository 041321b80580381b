/-
  PinnedFile.Transfer

  The native work of one operation.  A native call may move fewer bytes than it was
  asked to, or be cut short by a signal; a transfer asks again, for what is left, until
  its range is done, the file ends, or a call fails.

  A transfer is a state: `call?` is the native call that it makes next, `feed` is the
  transfer after the answer to that call, and `outcome?` is what it has come to once
  there is no further call to make.
-/

import PinnedFile.Buffer

namespace PinnedFile

/-- A native call. -/
inductive Call where
  /-- At most `length` bytes from `position` on. -/
  | read (position length : Nat)
  /-- `data` at `position`. -/
  | write (data : Bytes) (position : Nat)
  | sync
  | close
deriving DecidableEq, Repr

/-- How a native call ends. -/
inductive Answer where
  /-- It reports `count` bytes moved; `bytes` are those that a read put into the buffer. -/
  | moved (count : Nat) (bytes : Bytes)
  | failed (error : IoError)
  /-- It does not return. -/
  | panicked (message : String)
deriving DecidableEq, Repr

/-- What the work of an operation came to: the bytes of a read, nothing for the others,
    or the failure that stopped it. -/
abbrev Outcome := Except IoError Bytes

/-- The native work of an operation, as far as it has come. -/
inductive Transfer where
  /-- Writes `data` from `position` on; the first `written` bytes are acknowledged. -/
  | write (data : Bytes) (position written : Nat)
  /-- Reads up to `length` bytes from `position` on; `filled` bytes are reported, and
      `scratch` holds what was put into the buffer. -/
  | read (position length filled : Nat) (scratch : Bytes)
  | sync
  | close
  /-- Makes no further call. -/
  | ended (outcome : Outcome)
deriving Repr

namespace Transfer

/-- Positions and counts are below this, 2 to the power of 64. -/
def wordLimit : Nat := 0x10000000000000000

/-- The transfer of a write. -/
def ofWrite (data : Bytes) (position : Nat) : Transfer := .write data position 0

/-- The transfer of a read. -/
def ofRead (position length : Nat) : Transfer := .read position length 0 []

/-- The next native call; none when there is nothing more to do. -/
def call? : Transfer → Option Call
  | .write data position written =>
    if written < data.length then some (.write (data.drop written) (position + written))
    else none
  | .read position length filled _ =>
    if filled < length then some (.read (position + filled) (length - filled)) else none
  | .sync => some .sync
  | .close => some .close
  | .ended _ => none

/-- The bytes of a read of which `filled` are reported. -/
def readBytes (length filled : Nat) (scratch : Bytes) : Bytes := scratch.upTo (min filled length)

/-- What a transfer has come to, if there is nothing more to do. -/
def outcome? : Transfer → Option Outcome
  | .write data _ written => if written < data.length then none else some (.ok [])
  | .read _ length filled scratch =>
    if filled < length then none else some (.ok (readBytes length filled scratch))
  | .sync | .close => none
  | .ended outcome => some outcome

/-- A write after `count` bytes were acknowledged.  None at all is a failure.  Where its
    next position would not fit a machine word, it panics. -/
def wrote (data : Bytes) (position written count : Nat) : Option Transfer :=
  if count = 0 then some (.ended (.error .wroteNothing))
  else if position + written + count < wordLimit then
    some (.write data position (written + count))
  else none

/-- A read after `count` bytes were reported.  None at all is the end of the file.  Where
    the number of bytes reported, or the next position, would not fit a machine word, it
    panics. -/
def filledBy (position length filled : Nat) (scratch : Bytes) (count : Nat) : Option Transfer :=
  if count = 0 then some (.ended (.ok (readBytes length filled scratch)))
  else if wordLimit ≤ filled + count then none
  else if filled + count < length ∧ wordLimit ≤ position + filled + count then none
  else some (.read position length (filled + count) scratch)

/-- The transfer after the answer to its call; none if it panics.  A read or a write that
    was interrupted is asked for again. -/
def feed (t : Transfer) : Answer → Option Transfer
  | .panicked _ => none
  | .failed error =>
    match t with
    -- nothing was moved, so the same call is made again
    | .write .. | .read .. => some (if error.isInterrupted then t else .ended (.error error))
    | .sync | .close => some (.ended (.error error))
    | .ended _ => some t
  | .moved count bytes =>
    match t with
    | .write data position written => wrote data position written count
    -- the bytes are in the buffer even if fewer or more of them are reported
    | .read position length filled scratch =>
      filledBy position length filled (scratch.place filled bytes) count
    | .sync | .close => some (.ended (.ok []))
    | .ended _ => some t

/-- A transfer either makes a call or has come to an end. -/
theorem call?_eq_none_iff (t : Transfer) : t.call? = none ↔ ∃ o, t.outcome? = some o := by
  cases t with
  | write data position written =>
    by_cases more : written < data.length <;> simp [call?, outcome?, more]
  | read position length filled scratch =>
    by_cases more : filled < length <;> simp [call?, outcome?, more]
  | sync => simp [call?, outcome?]
  | close => simp [call?, outcome?]
  | ended outcome => simp [call?, outcome?]

end Transfer

end PinnedFile
