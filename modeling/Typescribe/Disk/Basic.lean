import Typescribe.Store.Basic
import Typescribe.Text.Utf8

/-!
# Disks

A disk holds directories and files. A path is followed piece by piece from the working directory,
or from the root if it starts there; every piece but the last has to lead to a directory.
-/

namespace Typescribe

/-- What a file holds. -/
inductive FileContent where
  | text (text : String)
  /-- Bytes that are not UTF-8. -/
  | binary (bytes : List UInt8)
  deriving DecidableEq, Repr

namespace FileContent

/-- The content that bytes are. -/
def ofBytes (bytes : List UInt8) : FileContent :=
  match Text.ofUtf8? bytes with
  | some found => .text found
  | none => .binary bytes

/-- A content as text, with replacement characters for what is not UTF-8. -/
def shown : FileContent → String
  | text found => found
  | binary bytes => Text.ofUtf8Lossy bytes

end FileContent

/-- What is at a place on a disk. -/
inductive DiskNode where
  | directory
  | file (content : FileContent)
  deriving DecidableEq, Repr

/-- A place on a disk: the names that lead to it from the root. -/
abbrev Location := List String

/-- What a disk demands of paths and names. -/
structure NameRules where
  /-- Why a path cannot be used at all. -/
  refusePath : Path → Option FaultKind := fun _ => none
  /-- Why a name cannot be used. -/
  refuseName : String → Option FaultKind := fun _ => none

namespace NameRules

/-- Any path and any name can be used. -/
def lenient : NameRules := {}

/-- The greatest number of bytes of a name. -/
def maxNameLength : Nat := 255

/-- The greatest number of bytes of a path. -/
def maxPathLength : Nat := 4095

/-- No path holds a zero character, and the lengths of paths and names are bounded. -/
def usual : NameRules where
  refusePath path :=
    if path.text.toList.contains '\x00' then some .invalidInput
    else if maxPathLength < path.text.utf8ByteSize then some .invalidName
    else none
  refuseName name := if maxNameLength < name.utf8ByteSize then some .invalidName else none

end NameRules

/-- A disk, seen from a working directory. -/
structure Disk where
  rules : NameRules := NameRules.lenient
  workingDirectory : Location := []
  /-- What is on the disk, the working directory and the directories around it apart. -/
  nodes : List (Location × DiskNode) := []

namespace Disk

/-- What is at a place. -/
def node? (disk : Disk) (location : Location) : Option DiskNode :=
  if location.isPrefixOf disk.workingDirectory then some .directory
  else disk.nodes.lookup location

/-- A list of nodes with a node put at a place. -/
def putNode (location : Location) (node : DiskNode) :
    List (Location × DiskNode) → List (Location × DiskNode)
  | [] => [(location, node)]
  | entry :: rest =>
    if entry.1 = location then (location, node) :: rest else entry :: putNode location node rest

/-- The disk with a node put at a place. -/
def put (disk : Disk) (location : Location) (node : DiskNode) : Disk :=
  { disk with nodes := putNode location node disk.nodes }

/-- Where a path starts. -/
def start (disk : Disk) (path : Path) : Location :=
  if path.isAbsolute then [] else disk.workingDirectory

/-- The place that the pieces of a path lead to. -/
def walk (disk : Disk) : Location → List (List Char) → Except FaultKind Location
  | current, [] => .ok current
  | current, piece :: rest =>
    match disk.node? current with
    | none => .error .notFound
    | some (.file _) => .error .notADirectory
    | some .directory =>
      match Path.stepOf? piece with
      | some (.name name) =>
        match disk.rules.refuseName name with
        | some kind => .error kind
        | none => disk.walk (current ++ [name]) rest
      | some .up => disk.walk current.dropLast rest
      | _ => disk.walk current rest

/-- The place that a path leads to. There may be nothing at it. -/
def locate (disk : Disk) (path : Path) : Except FaultKind Location :=
  match disk.rules.refusePath path with
  | some kind => .error kind
  | none =>
    if path.text.isEmpty then .error .notFound else disk.walk (disk.start path) path.pieces

/-- Whether there is something at a path. -/
def holds (disk : Disk) (path : Path) : Bool :=
  match disk.locate path with
  | .ok location => (disk.node? location).isSome
  | .error _ => false

/-- The text of a file. -/
def read (disk : Disk) (path : Path) : Except FaultKind String :=
  match disk.locate path with
  | .error kind => .error kind
  | .ok location =>
    match disk.node? location with
    | none => .error .notFound
    | some .directory => .error .isADirectory
    | some (.file (.binary _)) => .error .invalidData
    | some (.file (.text text)) => .ok text

/-- The files in and below the working directory, by the paths that lead to them from there, in
alphabetical order. -/
def files (disk : Disk) : List (String × FileContent) :=
  let found := disk.nodes.filterMap fun entry =>
    match entry.2 with
    | .directory => none
    | .file content =>
      if disk.workingDirectory.isPrefixOf entry.1 then
        some (String.intercalate "/" (entry.1.drop disk.workingDirectory.length), content)
      else none
  found.mergeSort fun left right => decide (left.1 ≤ right.1)

end Disk

end Typescribe
