import Typescribe.Program.Execution

/-!
# The executable

The program itself works on a disk in memory. Here the part of the real disk that it looks at is
copied into memory, and what it changes is copied back.
-/

namespace Typescribe.RealDisk

/-- The path of a place on the real disk. -/
def pathOf (location : Location) : String :=
  "/" ++ String.intercalate "/" location

/-- What is at a place on the real disk. -/
def lookAt (location : Location) : IO (Option DiskNode) := do
  try
    let bytes ← IO.FS.readBinFile (pathOf location)
    return some (.file (FileContent.ofBytes bytes.toList))
  catch
    | .inappropriateType .. => return some .directory
    | _ => return none

/-- Copies what a path leads through into memory. -/
def copyPath (disk : Disk) (path : Path) : IO Disk := do
  let mut disk := disk
  let pieces := path.pieces
  for count in List.range (pieces.length + 1) do
    match disk.walk (disk.start path) (pieces.take count) with
    | .error _ => pure ()
    | .ok location =>
      if (disk.node? location).isNone then
        if let some node ← lookAt location then
          disk := disk.put location node
  return disk

/-- Copies what a run looks at into memory. Each round can tell what the next one needs: the
manifest lists the schema files, and these say what is generated. -/
def copyTouched (words : List String) (disk : Disk) : IO Disk := do
  let mut disk := disk
  for _ in List.range 3 do
    for path in Program.touched words disk do
      disk ← copyPath disk path
  return disk

/-- Copies what a run changed to the real disk. -/
def copyBack (before after : Disk) : IO Unit := do
  for (location, node) in after.nodes do
    if before.node? location != some node then
      match node with
      | .directory => IO.FS.createDirAll (pathOf location)
      | .file (.text text) => IO.FS.writeFile (pathOf location) text
      | .file (.binary bytes) =>
        IO.FS.writeBinFile (pathOf location) (ByteArray.mk bytes.toArray)

end Typescribe.RealDisk

open Typescribe in
/-- Runs the program. -/
def main (words : List String) : IO UInt32 := do
  let working := (← IO.currentDir).toString
  let empty : Disk :=
    { rules := .usual
      workingDirectory := (working.splitOn "/").filter fun name => !name.isEmpty }
  let before ← RealDisk.copyTouched words empty
  let run := Program.run words before
  RealDisk.copyBack before run.disk
  for line in run.lines do
    match line.channel with
    | .output => IO.println line.text
    | .error => IO.eprintln line.text
  return UInt32.ofNat run.code
