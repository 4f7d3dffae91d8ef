import Typescribe.Disk.Basic

/-!
# Writing to disks

A write that fails leaves the disk as far as it came: directories that were made stay.
-/

namespace Typescribe

namespace Disk

/-- Makes the directories that the pieces of a path lead through, from a directory on. -/
def makeFrom (disk : Disk) : Location → List (List Char) → Except FaultKind Unit × Disk
  | _, [] => (.ok (), disk)
  | current, piece :: rest =>
    match Path.stepOf? piece with
    | some (.name name) =>
      match disk.rules.refuseName name with
      | some kind => (.error kind, disk)
      | none =>
        let inner := current ++ [name]
        match disk.node? inner with
        | some .directory => disk.makeFrom inner rest
        | some (.file _) => (.error .notADirectory, disk)
        | none => (disk.put inner .directory).makeFrom inner rest
    | some .up => disk.makeFrom current.dropLast rest
    | _ => disk.makeFrom current rest

/-- Makes a directory and the directories around it, as far as they are not there. -/
def makeDirs (disk : Disk) (path : Path) : Except FaultKind Unit × Disk :=
  match disk.rules.refusePath path with
  | some kind => (.error kind, disk)
  | none => disk.makeFrom (disk.start path) path.pieces

/-- Puts a file at a path in a directory that is there. -/
def writeFile (disk : Disk) (path : Path) (content : FileContent) : Except FaultKind Unit × Disk :=
  match disk.locate path with
  | .error kind => (.error kind, disk)
  | .ok location =>
    match disk.node? location with
    | some .directory => (.error .isADirectory, disk)
    | _ => (.ok (), disk.put location (.file content))

/-- Puts a file at a path, and makes the directories around it. -/
def save (disk : Disk) (path : Path) (content : FileContent) : Except FaultKind Unit × Disk :=
  match path.parent? with
  | none => disk.writeFile path content
  | some parent =>
    match disk.makeDirs parent with
    | (.error kind, disk) => (.error kind, disk)
    | (.ok (), disk) => disk.writeFile path content

end Disk

/-- The files below a directory of a disk. -/
structure DiskStore where
  disk : Disk
  root : Path

namespace DiskStore

/-- A path of the store as a path of the disk. -/
def full (store : DiskStore) (path : Path) : Path :=
  store.root.join path

instance : Store DiskStore where
  read store path :=
    match store.disk.read (store.full path) with
    | .ok text => .ok text
    | .error kind => .error (.disk kind)
  write store path text :=
    match store.disk.save (store.full path) (.text text) with
    | (.ok (), disk) => (.ok (), { store with disk })
    | (.error kind, disk) => (.error (.disk kind), { store with disk })
  holds store path := store.disk.holds (store.full path)

end DiskStore

end Typescribe
