/-
  PinnedFile.Main

  The command line of the copying program: a source and a destination, or nothing to
  copy a sample.  The files are read beforehand, the copying is run on what was read,
  and the destination is written with what it came to.
-/

import PinnedFile.Copying

namespace PinnedFile.CommandLine

/-- The bytes of a file, if it can be read. -/
def readFile? (path : String) : IO (Option Bytes) := do
  try
    let data ← IO.FS.readBinFile path
    return some data.toList
  catch _ => return none

/-- The name of the source while the copying is run. -/
def sourceName : Bytes := "source".toUTF8.toList

/-- The name of the destination while the copying is run. -/
def destinationName : Bytes := "destination".toUTF8.toList

/-- Writes what a report tells, and gives its exit code. -/
def tell (report : Copying.Report) : IO UInt32 := do
  IO.print report.output
  for line in report.errors do
    IO.eprintln line
  return report.exitCode.toUInt32

/-- Copies one file to another. -/
def copyFile (source destination : String) : IO UInt32 := do
  let mut files := FileTree.initial
  if let some data ← readFile? source then
    files := files.withFile sourceName data
  if let some data ← readFile? destination then
    files := files.withFile destinationName data
  let report := Copying.copy files sourceName destinationName
  if let .file _ (some data) := report.files.status destinationName then
    try
      IO.FS.writeBinFile destination (ByteArray.mk data.toArray)
    catch _ => return Copying.panicCode.toUInt32
  tell report

/-- Copies the first argument to the second, or with fewer a sample. -/
def run : List String → IO UInt32
  | source :: destination :: _ => copyFile source destination
  | _ => tell (Copying.copySample .initial)

end PinnedFile.CommandLine

/-- The program. -/
def main (args : List String) : IO UInt32 := PinnedFile.CommandLine.run args
