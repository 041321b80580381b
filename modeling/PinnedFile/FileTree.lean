/-
  PinnedFile.FileTree

  The files of the operating system: directories, regular files, and the two devices
  that swallow or refuse what is written to them.  The tree is used by the owner of all
  that is in it, and what it creates is not writable by group and others.

  A file is reached through a path once, when it is opened; calls then go to the node
  itself, so that two openings of one path share its bytes.
-/

import PinnedFile.Memory
import PinnedFile.OpenOptions
import PinnedFile.Path

namespace PinnedFile

/-- The number of a node. -/
abbrev NodeId := Nat

/-- What a name can stand for. -/
inductive Node where
  | file (mode : Nat) (data : Bytes)
  | directory (entries : List (Bytes × NodeId))
  /-- Holds nothing and takes everything. -/
  | null
  /-- Holds zeros without end and takes nothing. -/
  | full
deriving DecidableEq, Repr

/-- A file as far as its node and the access to it are concerned. -/
structure Descriptor where
  node : NodeId
  readable : Bool
  writable : Bool
deriving DecidableEq, Repr

/-- What can be said about a path. -/
inductive FileStatus where
  | absent
  | directory
  /-- A file, with its bytes if they may be read. -/
  | file (mode : Nat) (data : Option Bytes)
deriving DecidableEq, Repr

/-- The files of the operating system. -/
structure FileTree where
  /-- Node 0 is the root. -/
  nodes : List Node
  /-- The working directory and those above it, the root last. -/
  working : List NodeId
deriving DecidableEq, Repr

namespace FileTree

/-- The permissions that a created file never gets. -/
def mask : Nat := 0o022

/-- The mode of a file created with `mode`. -/
def masked (mode : Nat) : Nat := mode - (mode &&& mask)

/-- Positions are below this, 2 to the power of 63. -/
def positionLimit : Nat := 0x8000000000000000

/-- The size no regular file can exceed: 16 TiB less one page. -/
def sizeLimit : Nat := 0xffffffff000

/-- The mode that both devices show. -/
def deviceMode : Nat := 0o666

/-- A tree with the two devices, a directory for temporary files, and an empty working
    directory. -/
def initial : FileTree where
  nodes :=
    [.directory [("dev".toUTF8.toList, 1), ("tmp".toUTF8.toList, 2), ("work".toUTF8.toList, 3)],
     .directory [("null".toUTF8.toList, 4), ("full".toUTF8.toList, 5)],
     .directory [], .directory [], .null, .full]
  working := [3, 0]

/-! ## Following a path -/

/-- The node of a number. -/
def node (t : FileTree) (id : NodeId) : Node := t.nodes.getD id .null

/-- The place of a name in the directory at the head of `place`.  A place is a node and
    the directories above it, the nearest first. -/
def enter (t : FileTree) (place : List NodeId) (name : Bytes) : Except IoError (List NodeId) :=
  match t.node (place.headD 0) with
  | .directory entries =>
    -- `.` stays where it is, and so does `..` at the root
    if name = Path.self then .ok place
    else if name = Path.parent then .ok (if place.length ≤ 1 then place else place.tail)
    else if name.length > Path.maxNameLength then .error .nameTooLong
    else
      match entries.lookup name with
      | some id => .ok (id :: place)
      | none => .error .missing
  | _ => .error .notADirectory

/-- The place where a path starts. -/
def start (t : FileTree) (path : Path) : List NodeId :=
  if path.isAbsolute then [0] else t.working

/-- The place that some names lead to. -/
def follow (t : FileTree) (place : List NodeId) (names : List Bytes) :
    Except IoError (List NodeId) :=
  names.foldlM t.enter place

/-- The node that a path leads to. -/
def find (t : FileTree) (path : Path) : Except IoError NodeId := do
  let place ← t.follow (t.start path) path.names
  let id := place.headD 0
  match t.node id with
  | .directory _ => .ok id
  | _ => if path.isFolder then .error .notADirectory else .ok id

/-! ## Opening and creating -/

/-- A new node under `name` in the directory `parent`. -/
def insert (t : FileTree) (parent : NodeId) (name : Bytes) (node : Node) : FileTree :=
  { t with
    nodes := (t.nodes.modify parent fun
      -- the new node comes last, so its number is the length so far
      | .directory entries => .directory (entries ++ [(name, t.nodes.length)])
      | other => other) ++ [node] }

/-- Whether the owner of a file of a mode may open it for reading and writing. -/
def permits (mode : Nat) (read write : Bool) : Bool :=
  (!read || mode.testBit 8) && (!write || mode.testBit 7)

/-- The node of a number as far as it may be opened. -/
def openNode (t : FileTree) (id : NodeId) (read write : Bool) : Except IoError NodeId :=
  match t.node id with
  | .directory _ => if write then .error .isADirectory else .ok id
  | .file mode _ => if permits mode read write then .ok id else .error .accessDenied
  | .null | .full => .ok id

/-- Opens the file of a path, which is created if it is not there.  A directory is
    refused, and so is a path that can only mean one. -/
def openOrCreate (t : FileTree) (path : Path) (read write : Bool) (mode : Nat) :
    Except IoError (NodeId × FileTree) :=
  match path.names.getLast? with
  | none => .error .isADirectory
  | some name => do
    let place ← t.follow (t.start path) path.names.dropLast
    -- what comes before the last name has to be a directory, whatever that name is
    let _ ← t.enter place Path.self
    if path.isFolder then .error .isADirectory
    else
      match t.enter place name with
      | .ok found =>
        match t.node (found.headD 0) with
        | .directory _ => .error .isADirectory
        | _ => (t.openNode (found.headD 0) read write).map fun id => (id, t)
      | .error e =>
        -- only a name that stands for nothing is given to a new file
        if e = .missing then
          .ok (t.nodes.length, t.insert (place.headD 0) name (.file (masked mode) []))
        else .error e

/-- Opens the file at a path. -/
def openPath (t : FileTree) (path : Bytes) (read write create : Bool) (mode : Nat) :
    Except IoError (Descriptor × FileTree) := do
  let path ← Path.parse path
  if create then
    let (id, t) ← t.openOrCreate path read write mode
    .ok (⟨id, read, write⟩, t)
  else
    let id ← t.find path
    let id ← t.openNode id read write
    .ok (⟨id, read, write⟩, t)

/-- What is at a path. -/
def status (t : FileTree) (path : Bytes) : FileStatus :=
  match Path.parse path >>= t.find with
  | .error _ => .absent
  | .ok id =>
    match t.node id with
    | .directory _ => .directory
    | .file mode data => .file mode (if permits mode true false then some data else none)
    | .null | .full => .file deviceMode (some [])

/-- A file of given bytes put at a path where there is none. -/
def withFile (t : FileTree) (path data : Bytes) : FileTree :=
  match t.openPath path false true true OpenOptions.defaultMode with
  | .error _ => t
  | .ok (d, t) => { t with nodes := t.nodes.modify d.node fun
      | .file mode _ => .file mode data
      | other => other }

/-- An empty directory put at a path where there is none. -/
def withDirectory (t : FileTree) (path : Bytes) : FileTree :=
  match Path.parse path with
  | .error _ => t
  | .ok p =>
    match p.names.getLast?, t.follow (t.start p) p.names.dropLast with
    | some name, .ok place => t.insert (place.headD 0) name (.directory [])
    | _, _ => t

/-! ## Calls -/

/-- A read of a range of which both ends are positions. -/
def readNode (position length : Nat) : Node → Answer
  | .file _ data =>
    let bytes := data.window position length
    .moved bytes.length bytes
  | .directory _ => .failed .isADirectory
  | .null => .moved 0 []
  | .full => .moved length (Bytes.zeros length)

/-- A write of a range of which both ends are positions. -/
def writeNode (data : Bytes) (position : Nat) : Node → Answer × Node
  | .file mode old =>
    if position ≥ sizeLimit then (.failed .tooLarge, .file mode old)
    else
      -- what goes beyond the largest size is left over, as with any short write
      let data := data.take (sizeLimit - position)
      (.moved data.length [], .file mode (old.place position data))
  | .directory entries => (.failed .badDescriptor, .directory entries)
  | .null => (.moved data.length [], .null)
  | .full => (.failed .noSpace, .full)

/-- Performs a native call. -/
def perform (t : FileTree) (d : Descriptor) : Call → Answer × FileTree
  | .read position length =>
    -- the start is looked at before the access, and the end after it
    if position ≥ positionLimit then (.failed .positionOutOfRange, t)
    else if !d.readable then (.failed .badDescriptor, t)
    else if position + length ≥ positionLimit then (.failed .invalid, t)
    else (readNode position length (t.node d.node), t)
  | .write data position =>
    if position ≥ positionLimit then (.failed .positionOutOfRange, t)
    else if !d.writable then (.failed .badDescriptor, t)
    else if position + data.length ≥ positionLimit then (.failed .invalid, t)
    else
      let (answer, node) := writeNode data position (t.node d.node)
      (answer, { t with nodes := t.nodes.set d.node node })
  | .sync =>
    match t.node d.node with
    | .null | .full => (.failed .invalid, t)
    | _ => (.moved 0 [], t)
  | .close => (.moved 0 [], t)

end FileTree

end PinnedFile
