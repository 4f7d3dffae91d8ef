import Typescribe.Path

/-!
# Manifests

A manifest names the schema files of a project, in the order in which they are taken, and the
directory that the generated files go to.
-/

namespace Typescribe

/-- A manifest. Relative paths are seen from the directory it was loaded from. -/
structure Manifest where
  /-- The output directory as written. -/
  dir : String
  /-- The schema files as written. -/
  files : List String
  /-- The directory of the manifest. -/
  root : Path := ⟨""⟩
  deriving DecidableEq, Repr

namespace Manifest

/-- What a manifest is called where no other name is given. -/
def standardName : String := "protots.toml"

/-- The output directory of a manifest that names none. -/
def standardDir : String := "generated"

/-- The output directory. -/
def outputDir (manifest : Manifest) : Path :=
  manifest.root.join ⟨manifest.dir⟩

/-- The schema files in order. -/
def schemaPaths (manifest : Manifest) : List Path :=
  manifest.files.map fun file => manifest.root.join ⟨file⟩

end Manifest

end Typescribe
