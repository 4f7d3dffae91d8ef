import Typescribe.Schema.Declaration
import Typescribe.Store.Basic

/-!
# Reasons for which generation fails
-/

namespace Typescribe

/-- A use that a declaration is not fit for. -/
inductive Usage where
  | fieldType
  | dataType
  | rpcMessage
  deriving DecidableEq, Repr

/-- How messages describe a use. -/
def Usage.text : Usage → String
  | fieldType => "used as a field type"
  | dataType => "rendered as a data type"
  | rpcMessage => "used as an rpc request or response"

/-- A reason for which generation fails. -/
inductive GenerationError where
  /-- A name of the form of a scalar is none. -/
  | unknownScalar (name : String)
  /-- A type name has no segment that names a type. -/
  | invalidTypeName (type : TypeName)
  /-- A declaration is of the wrong kind for its use. -/
  | unsupported (kind : DeclarationKind) (type : TypeName) (usage : Usage)
  /-- A procedure uses a type that is not known yet. -/
  | unknownRpcType (service : TypeName) (rpc : String) (type : TypeName)
  /-- A file is to be patched and it is not known which. -/
  | missingOutputPath (type : TypeName)
  /-- A generated file cannot be read back. -/
  | read (path : Path) (fault : StoreFault)
  /-- A generated file cannot be written. -/
  | write (path : Path) (fault : StoreFault)
  deriving DecidableEq, Repr

/-- What is said about a failure. -/
def GenerationError.message : GenerationError → String
  | unknownScalar name => "unknown scalar type `" ++ name ++ "`"
  | invalidTypeName type => "type reference `" ++ type.text ++ "` does not name a type"
  | unsupported kind type usage =>
    kind.name ++ " `" ++ type.text ++ "` cannot be " ++ usage.text
  | unknownRpcType service rpc type =>
    "rpc `" ++ rpc ++ "` of `" ++ service.text ++ "` uses `" ++ type.text ++
      "`, which is not declared"
  | missingOutputPath type => "no output file was recorded for `" ++ type.text ++ "`"
  | read path _ => "failed to read " ++ path.text
  | write path _ => "failed to write " ++ path.text

end Typescribe
