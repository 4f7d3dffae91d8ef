import Typescribe.Disk.Basic
import Typescribe.Manifest.Validation

/-!
# Loading manifests and schema files
-/

namespace Typescribe

/-- The text of a file, with the path as its name. -/
def Disk.source (disk : Disk) (path : Path) : Except ManifestError Source :=
  match disk.read path with
  | .ok text => .ok ⟨path.text, text⟩
  | .error kind => .error (.unreadable path kind)

namespace Manifest

/-- Loads a manifest. Relative paths in it are seen from its directory. -/
def load (disk : Disk) (path : Path) : Except ManifestError Manifest := do
  let source ← disk.source path
  let manifest ← ofSource source
  return { manifest with root := path.parent?.getD ⟨""⟩ }

/-- Loads the schema files of a manifest in order. -/
def loadSchemas (disk : Disk) (manifest : Manifest) : Except ManifestError (List SchemaFile) :=
  manifest.schemaPaths.mapM fun path => do
    let source ← disk.source path
    SchemaFile.ofSource source

end Manifest

end Typescribe
