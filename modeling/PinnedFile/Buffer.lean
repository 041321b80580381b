/-
  PinnedFile.Buffer

  The growable byte buffer that reads fill and writes take their data from.  A buffer
  never grows beyond `maxLength` bytes: a placement that would is refused and leaves the
  buffer as it was.
-/

import PinnedFile.FileError

namespace PinnedFile

/-- A growable byte buffer. -/
structure Buffer where
  bytes : Bytes
deriving DecidableEq, Repr

namespace Buffer

/-- The length no buffer can exceed, 2 to the power of 63 less one. -/
def maxLength : Nat := 0x7fffffffffffffff

/-- The buffer without bytes. -/
def empty : Buffer := ⟨[]⟩

/-- The number of bytes. -/
def length (b : Buffer) : Nat := b.bytes.length

/-- Whether the buffer has no bytes. -/
def isEmpty (b : Buffer) : Bool := b.bytes.isEmpty

/-- `data` put behind the bytes of `b`. -/
def append (b : Buffer) (data : Bytes) : Buffer := ⟨b.bytes ++ data⟩

/-- Whether `count` bytes fit at `offset`. -/
def fits (count offset : Nat) : Bool := offset + count ≤ maxLength

/-- `data` put at `offset`, zeros filling a gap behind the end of `b`. -/
def setBytes (b : Buffer) (offset : Nat) (data : Bytes) : Except FileError Buffer :=
  if fits data.length offset then .ok ⟨b.bytes.place offset data⟩
  else .error (.invalidArgument (.placement data.length offset))

/-- The index of the first byte that equals `byte`. -/
def indexOf? (b : Buffer) (byte : UInt8) : Option Nat := b.bytes.findIdx? (· == byte)

/-- Whether the bytes of `b` begin with `data`. -/
def startsWith (b : Buffer) (data : Bytes) : Bool := data.isPrefixOf b.bytes

/-- A short text that tells the length. -/
def describe (b : Buffer) : String := "Buffer \x7b len: " ++ toString b.length ++ " \x7d"

@[simp] theorem length_append (b : Buffer) (data : Bytes) :
    (b.append data).length = b.length + data.length := by
  simp [append, length]

/-- Placing data right behind the end is appending it. -/
theorem setBytes_length (b : Buffer) (data : Bytes) (room : fits data.length b.length) :
    b.setBytes b.length data = .ok (b.append data) := by
  have same : b.bytes.place b.bytes.length data = b.bytes ++ data := by
    simp [Bytes.place, Bytes.zeros]
  have within : fits data.length b.bytes.length = true := room
  simp only [setBytes, append, length, within, if_true, same]

end Buffer

end PinnedFile
