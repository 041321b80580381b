/-
  PinnedFile.Text.Utf8

  Byte strings read as UTF-8 text.  Well-formed sequences give their characters; what is
  not well formed is split into its maximal ill-formed parts: as many bytes as begin
  some character, or else one byte.  A path is shown to people with one replacement
  character for each such part (`lossy`), and in a quoted text with each of its bytes
  in base sixteen (`quotePath`).
-/

import PinnedFile.Bytes
import PinnedFile.Text.Quoted

namespace PinnedFile.Text

/-- A piece of a byte string read as text. -/
inductive Piece where
  /-- A well-formed sequence. -/
  | char (c : Char)
  /-- A maximal ill-formed part. -/
  | broken (bytes : Bytes)
deriving DecidableEq, Repr

/-- What a leading byte asks for: the bounds of the byte after it, and how many bytes
    follow in all.  None for bytes that lead nothing longer than themselves. -/
def following (lead : UInt8) : Option (UInt8 × UInt8 × Nat) :=
  if 0xc2 ≤ lead ∧ lead ≤ 0xdf then some (0x80, 0xbf, 1)
  else if lead = 0xe0 then some (0xa0, 0xbf, 2)
  else if lead = 0xed then some (0x80, 0x9f, 2)
  else if 0xe1 ≤ lead ∧ lead ≤ 0xef then some (0x80, 0xbf, 2)
  else if lead = 0xf0 then some (0x90, 0xbf, 3)
  else if lead = 0xf4 then some (0x80, 0x8f, 3)
  else if 0xf1 ≤ lead ∧ lead ≤ 0xf3 then some (0x80, 0xbf, 3)
  else none

/-- The value bits of a leading byte that `count` bytes follow. -/
def leadBits (lead : UInt8) (count : Nat) : Nat :=
  lead.toNat % (if count = 1 then 0x20 else if count = 2 then 0x10 else 0x08)

/-- Reads the `count` bytes that a character still needs, the first of them within
    `low` and `high`: the character's code point, or the bytes that fitted. -/
def finish (low high : UInt8) : Nat → Nat → Bytes → Nat ⊕ Bytes
  | 0, code, _ => .inl code
  | _ + 1, _, [] => .inr []
  | count + 1, code, b :: rest =>
    if low ≤ b ∧ b ≤ high then
      -- only the first byte behind the lead has bounds of its own
      match finish 0x80 0xbf count (code * 64 + b.toNat % 64) rest with
      | .inl code => .inl code
      | .inr fitted => .inr (b :: fitted)
    else .inr []

/-- The piece that starts with `lead`, and how many of the bytes after it belong to it. -/
def firstPiece (lead : UInt8) (rest : Bytes) : Piece × Nat :=
  if lead < 0x80 then (.char (Char.ofNat lead.toNat), 0)
  else match following lead with
    | none => (.broken [lead], 0)
    | some (low, high, count) =>
      match finish low high count (leadBits lead count) rest with
      | .inl code => (.char (Char.ofNat code), count)
      | .inr fitted => (.broken (lead :: fitted), fitted.length)

/-- The pieces of a byte string, the first `skip` bytes belonging to a piece that has
    been read already. -/
def piecesFrom : Nat → Bytes → List Piece
  | _, [] => []
  | skip + 1, _ :: rest => piecesFrom skip rest
  | 0, lead :: rest =>
    let (piece, taken) := firstPiece lead rest
    piece :: piecesFrom taken rest

/-- The pieces of a byte string, in order. -/
def pieces (bytes : Bytes) : List Piece := piecesFrom 0 bytes

/-- The text of a byte string, U+FFFD standing for each ill-formed part. -/
def lossy (bytes : Bytes) : String :=
  String.ofList ((pieces bytes).map fun
    | .char c => c
    | .broken _ => '\ufffd')

/-- Two digits in base sixteen, upper case. -/
def byteEscape (b : UInt8) : List Char :=
  let digit (n : Nat) : Char := Char.ofNat (if n < 10 then 48 + n else 55 + n)
  ['\\', 'x', digit (b.toNat / 16), digit (b.toNat % 16)]

/-- A path between double quotes, ill-formed bytes in base sixteen. -/
def quotePath (path : Bytes) : String :=
  String.ofList (['"'] ++ (pieces path).flatMap (fun
    | .char c => escapeChar .fileName c
    | .broken bytes => bytes.flatMap byteEscape) ++ ['"'])

end PinnedFile.Text
