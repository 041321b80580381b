/-
  PinnedFile.Copying

  A program that copies one file to another.  It reads in chunks and writes each chunk
  as it comes; while the write queue is full it pauses reading, until the queue has
  drained.  The end of the source closes both files, and the number of bytes copied is
  told once the destination is closed.
-/

import PinnedFile.Session

namespace PinnedFile.Copying

/-- The slot of the file that is read. -/
def source : Slot := 0

/-- The slot of the file that is written. -/
def destination : Slot := 1

/-- The number of bytes read at a time. -/
def chunkSize : Nat := 64 * 1024

/-- The number of outstanding bytes from which on reading pauses. -/
def queueMax : Nat := 256 * 1024

/-- The number of workers. -/
def workers : Nat := 2

/-- The tag of the callback that is called when the destination is closed. -/
def closedTag : String := "closed"

/-- How the source is opened. -/
def sourceOptions : OpenOptions := { read := true, readBufferSize := chunkSize }

/-- How the destination is opened. -/
def destinationOptions : OpenOptions :=
  { write := true, create := true, writeQueueMaxSize := queueMax }

/-- What is done with a chunk: it is written, and if then the queue is full, reading
    pauses until the queue has drained. -/
def onChunk : List Command :=
  [.require "write chunk" (.send destination .received),
   .require "queue state" (.ifQueueFull destination
     -- the pause comes first: the registration may call the callback at once
     [.require "pause" (.pause source),
      .require "register drain"
        (.onDrain destination { tag := "drained", body := [.require "resume" (.resume source)] })]
     [])]

/-- What is done at the end of the source. -/
def onEnd : List Command :=
  [.require "close source" (.close source none),
   .require "close destination" (.close destination (some { tag := closedTag, body := [] }))]

/-- A listener that does nothing but to be seen. -/
def noting (text : String) : Listener Command := { tag := text, calls := [], each := [] }

/-- The copying of one path to another. -/
def program (sourcePath destinationPath : Bytes) : List Command :=
  [.require "open source" (.openFile source sourceOptions .log (.path sourcePath)),
   .require "open destination"
     (.openFile destination destinationOptions .log (.path destinationPath)),
   .require "read stream" (.readStream source),
   .require "write stream" (.writeStream destination),
   .require "register read errors" (.onReadFailure source (noting "read failed")),
   .require "register write errors" (.onWriteFailure destination (noting "write failed")),
   .require "start reading" (.onData source { tag := "chunk", calls := [], each := onChunk }),
   .require "register end" (.onEnd source { tag := "end", calls := [], each := onEnd })]

/-! ## What is seen of a run -/

/-- What the program leaves behind. -/
structure Report where
  exitCode : Nat
  output : String
  errors : List String
  files : FileTree

/-- The exit code of a program that has panicked. -/
def panicCode : Nat := 101

/-- A world in which the copying has begun. -/
def begin (files : FileTree) (sourcePath destinationPath : Bytes) : World :=
  let (context, w) := (World.start workers files).freshContext
  (w.runOn context [] (runAll [] (program sourcePath destinationPath))).2

/-- Whether the destination was closed, and its callback called. -/
def isDone (w : World) : Bool :=
  w.history.any fun entry =>
    match entry.event with
    | .handled _ .close tag (.ok _) => tag == closedTag
    | _ => false

/-- The number of bytes copied: the position of the write stream. -/
def total (w : World) : Nat :=
  match (w.slot destination).writer.bind w.writer? with
  | none => 0
  | some stream => stream.position

/-- What is written when the copying is done. -/
def output (w : World) : String :=
  if isDone w then "Copied " ++ toString (total w) ++ " bytes\n" else ""

/-- The failures told, one line each, the first one first. -/
def errors (w : World) : List String :=
  w.history.reverse.filterMap fun entry =>
    match entry.event with
    | .failed _ tag error => some (tag ++ ": " ++ error.message fun id => toString id.number)
    | _ => none

/-- Copies the file at one path to another. -/
def copy (files : FileTree) (sourcePath destinationPath : Bytes) : Report :=
  let w := (begin files sourcePath destinationPath).settled
  { exitCode := if isDone w && w.panicNote.isNone then 0 else panicCode
    output := output w
    errors := errors w
    files := w.files }

/-! ## The command line -/

/-- The bytes that are copied if no files are given. -/
def sample : Bytes := (List.range (1024 * 1024)).map fun i => UInt8.ofNat (i % 251)

/-- Where the sample is. -/
def samplePath : Bytes := "/tmp/source.tmp".toUTF8.toList

/-- Where the sample is copied to. -/
def sampleCopyPath : Bytes := "/tmp/dest.tmp".toUTF8.toList

/-- Copies a sample and tells whether the copy is like it. -/
def copySample (files : FileTree) : Report :=
  let report := copy (files.withFile samplePath sample) samplePath sampleCopyPath
  let same : Bool :=
    match report.files.status samplePath, report.files.status sampleCopyPath with
    | .file _ a, .file _ b => a == b
    | _, _ => false
  { report with
    output := report.output ++ (if report.exitCode = 0 then
      "Copy matches source: " ++ Text.flag same ++ "\n" else "")
    files := files }

/-- The program with some arguments: a source and a destination, of which more than two
    are not looked at, or with fewer, a sample. -/
def run (files : FileTree) : List Bytes → Report
  | sourcePath :: destinationPath :: _ => copy files sourcePath destinationPath
  | _ => copySample files

end PinnedFile.Copying
