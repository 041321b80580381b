/-
  PinnedFile.Path

  A path as the operating system reads it: names between slashes, of which several in a
  row count as one, from the root or from the working directory on.
-/

import PinnedFile.Bytes
import PinnedFile.IoError

namespace PinnedFile

/-- A path, taken apart. -/
structure Path where
  /-- From the root on, not from the working directory. -/
  isAbsolute : Bool
  /-- The names, none of them empty. -/
  names : List Bytes
  /-- Ends in a slash, so that only a directory can be meant. -/
  isFolder : Bool
deriving DecidableEq, Repr

namespace Path

/-- The byte between two names. -/
def slash : UInt8 := 47

/-- The name by which a directory calls itself. -/
def self : Bytes := [46]

/-- The name by which a directory calls the one above it. -/
def parent : Bytes := [46, 46]

/-- The length from which on a path is refused. -/
def lengthLimit : Nat := 4096

/-- The longest name. -/
def maxNameLength : Nat := 255

/-- The pieces between slashes, empty ones included. -/
def pieces : Bytes → List Bytes
  | [] => [[]]
  | c :: rest =>
    if c = slash then [] :: pieces rest
    else
      match pieces rest with
      | [] => [[c]]
      | first :: others => (c :: first) :: others

/-- A path from its bytes.  It is refused for a zero byte, for having no bytes, and for
    having too many, in this order. -/
def parse (bytes : Bytes) : Except IoError Path :=
  if bytes.contains 0 then .error .nulInPath
  else if bytes.isEmpty then .error .missing
  else if bytes.length ≥ lengthLimit then .error .nameTooLong
  else
    .ok { isAbsolute := bytes.head? = some slash
          -- slashes in a row leave empty pieces between them
          names := (pieces bytes).filter (!·.isEmpty)
          isFolder := bytes.getLast? = some slash }

end Path

end PinnedFile
