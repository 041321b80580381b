/-
  PinnedFile.Permissions

  Permission bits in the nine-letter form `rwxr-x---`: for owner, group and others the
  letters `r`, `w` and `x` in this order, each set by its letter or cleared by a dash.

  `parse` reads the form and `render` writes it; the mode is the number whose bit
  `8 - i` stands for the letter at index `i`.
-/

import PinnedFile.FileError

namespace PinnedFile.Permissions

/-- The byte of a cleared permission. -/
def dash : UInt8 := 45

/-- The letter that may stand at an index: `r`, `w`, `x` in turn. -/
def letter (index : Nat) : UInt8 :=
  match index % 3 with
  | 0 => 114
  | 1 => 119
  | _ => 120

/-- Reads letters from index `index` on, each one bit of the mode behind those in `mode`.
    A byte that does not belong at its index is handed back with the index. -/
def parseFrom (index mode : Nat) : Bytes → Except (UInt8 × Nat) Nat
  | [] => .ok mode
  | c :: rest =>
    if c = letter index then parseFrom (index + 1) (2 * mode + 1) rest
    else if c = dash then parseFrom (index + 1) (2 * mode) rest
    else .error (c, index)

/-- The mode that a permission string stands for. -/
def parse (text : String) : Except Misuse Nat :=
  let bytes := text.toUTF8.toList
  if bytes.length = 9 then
    match parseFrom 0 0 bytes with
    | .ok mode => .ok mode
    | .error (letter, index) => .error (.permissionLetter text letter index)
  else .error (.permissionLength text)

/-- The byte at an index of the form of `mode`. -/
def byteOf (mode index : Nat) : UInt8 :=
  if mode.testBit (8 - index) then letter index else dash

/-- The nine bytes of the form of `mode`. -/
def renderBytes (mode : Nat) : Bytes := (List.range 9).map (byteOf mode)

/-- The nine-letter form of a mode. -/
def render (mode : Nat) : String :=
  String.ofList ((renderBytes mode).map fun b => Char.ofNat b.toNat)

end PinnedFile.Permissions
