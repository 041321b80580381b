/-
  PinnedFile.Text.Quoted

  Quoted text, the form in which messages show a string or a character that a caller
  passed in: between quotes, with the usual escapes for NUL, tab, carriage return,
  newline and backslash, and with every character that has no face of its own, or that
  would attach to its neighbour, written as its code point.
-/

import PinnedFile.Text.Extending
import PinnedFile.Text.NonPrintable

namespace PinnedFile.Text

/-- A boolean as a text shows it. -/
def flag (b : Bool) : String := if b then "true" else "false"

/-- Whether a code point lies in one of some closed ranges. -/
def inRanges (ranges : Array (Nat × Nat)) (code : Nat) : Bool :=
  ranges.any fun range => range.1 ≤ code && code ≤ range.2

/-- A character that a quoted text may show as it is, as far as its own face goes. -/
def isPrintable (c : Char) : Bool := !inRanges nonPrintableRanges c.toNat

/-- A character that attaches to the one before it. -/
def isExtending (c : Char) : Bool := inRanges extendingRanges c.toNat

/-- Which of the two quotation marks a quoted text escapes. -/
structure Quoting where
  /-- The double quote is written with a backslash. -/
  double : Bool
  /-- The single quote is written with a backslash. -/
  single : Bool

/-- Strings stand between double quotes and leave the single quote alone. -/
def Quoting.string : Quoting := ⟨true, false⟩

/-- Characters stand between single quotes and leave the double quote alone. -/
def Quoting.character : Quoting := ⟨false, true⟩

/-- File names stand between double quotes and escape both marks. -/
def Quoting.fileName : Quoting := ⟨true, true⟩

/-- The digits of `n` in base sixteen, lower case, without leading zeros. -/
def hexDigits (n : Nat) : List Char := Nat.toDigits 16 n

/-- A character written as its code point. -/
def codePoint (c : Char) : List Char :=
  ['\\', 'u', '\x7b'] ++ hexDigits c.toNat ++ ['\x7d']

/-- The way one character is written inside quotes. -/
def escapeChar (quoting : Quoting) (c : Char) : List Char :=
  if c = '\x00' then ['\\', '0']
  else if c = '\t' then ['\\', 't']
  else if c = '\r' then ['\\', 'r']
  else if c = '\n' then ['\\', 'n']
  else if c = '\\' then ['\\', '\\']
  else if c = '"' then (if quoting.double then ['\\', '"'] else ['"'])
  else if c = '\'' then (if quoting.single then ['\\', '\''] else ['\''])
  -- it would attach to the quotation mark or to what stands before it
  else if isExtending c then codePoint c
  else if isPrintable c then [c]
  else codePoint c

/-- A string between double quotes. -/
def quoteString (s : String) : String :=
  String.ofList (['"'] ++ s.toList.flatMap (escapeChar .string) ++ ['"'])

/-- A character between single quotes. -/
def quoteChar (c : Char) : String :=
  String.ofList (['\''] ++ escapeChar .character c ++ ['\''])

end PinnedFile.Text
