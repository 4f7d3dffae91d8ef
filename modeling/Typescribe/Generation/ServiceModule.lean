import Typescribe.Generation.KnownTypes
import Typescribe.Generation.Location
import Typescribe.Text.Casing

/-!
# Modules of services

A service becomes a class with one asynchronous method for each procedure. The class posts through
a network client whose interface stands in a module beside it.
-/

namespace Typescribe

open TypeScript

namespace Service

/-- The interface through which services post. -/
def clientType : String := "ServiceNetworkClient"

/-- A text without one given ending, if it has it. -/
def dropEnding (ending text : List Char) : List Char :=
  if ending.isSuffixOf text then text.take (text.length - ending.length) else text

/-- The route of a procedure: the service without one ending `Service`, then the procedure, both
in kebab case. -/
def route (service rpc : String) : String :=
  Text.kebab (String.ofList (dropEnding "Service".toList service.toList)) ++ "/" ++ Text.kebab rpc

end Service

/-- A procedure whose request and response records are known. -/
structure ResolvedRpc where
  rpc : Rpc
  request : Record
  response : Record
  requestName : String
  responseName : String

namespace ResolvedRpc

/-- Whether a request has anything to send. -/
def hasPayload (resolved : ResolvedRpc) : Bool :=
  decide (0 < resolved.request.fieldCount)

/-- The types that the method of a procedure mentions. -/
def mentioned (resolved : ResolvedRpc) : List TypeName :=
  (if resolved.hasPayload then [resolved.request.type] else []) ++ [resolved.response.type]

/-- The method that calls a procedure. -/
def method (service : Service) (resolved : ResolvedRpc) : Method :=
  let payload := if resolved.hasPayload then "serialize(request)" else "null"
  { name := Text.lowerFirst resolved.rpc.name
    params :=
      if resolved.hasPayload then [{ name := "request", type := resolved.requestName }] else []
    returnType := some ("Promise<" ++ resolved.responseName ++ ">")
    body :=
      ["const response = await this.client.post(\"" ++
          Service.route service.name resolved.rpc.name ++ "\", " ++ payload ++ ")",
        "return plainToClass(" ++ resolved.responseName ++ ", response.data as JSON)"]
    doc := Text.docLines resolved.rpc.documentation
    isAsync := true }

end ResolvedRpc

namespace KnownTypes

/-- The record that a procedure sends or receives. -/
def messageRecord (known : KnownTypes) (service : Service) (rpc : Rpc) (type : TypeName) :
    Except GenerationError Record :=
  match known.find? type with
  | some (.record head _) => .ok head
  | some declaration => .error (.unsupported declaration.kind type .rpcMessage)
  | none => .error (.unknownRpcType service.type rpc.name type)

/-- A procedure with its request and response records. -/
def resolveRpc (known : KnownTypes) (service : Service) (rpc : Rpc) :
    Except GenerationError ResolvedRpc := do
  let request ← known.messageRecord service rpc rpc.requestType
  let response ← known.messageRecord service rpc rpc.responseType
  let requestName ← request.type.className
  let responseName ← response.type.className
  return { rpc, request, response, requestName, responseName }

end KnownTypes

namespace Service

/-- The imports of a service's module. -/
def imports (service : Service) (rpcs : List ResolvedRpc) :
    Except GenerationError (List Import) :=
  let client : Import := { source := "./" ++ clientType, defaultName := some clientType }
  if rpcs.isEmpty then
    .ok [client]
  else do
    let transformer : Import :=
      { source := "class-transformer"
        named := "plainToClass" ::
          if rpcs.any ResolvedRpc.hasPayload then ["serialize"] else [] }
    let types := (rpcs.flatMap ResolvedRpc.mentioned).filter TypeName.needsImport
    let messages ← types.mapM service.type.importInto
    return client :: transformer :: messages

/-- The class of a service. -/
def clientClass (service : Service) (rpcs : List ResolvedRpc) : TypeScript.Class where
  name := service.name
  exported := .asDefault
  doc := Text.docLines service.documentation
  sections :=
    [.line ("client: " ++ clientType)] ::
      Constructor.fragments { params := [{ name := "client", type := clientType }] } ::
      rpcs.map fun resolved => (resolved.method service).fragments

/-- The path of the module with the network client's interface. -/
def clientFile (service : TypeName) : Path :=
  service.packageDir.join ⟨clientType ++ ".ts"⟩

/-- The network client's interface. -/
def clientSource : List String :=
  ["// A network response.",
    "// AxiosResponse fulfills the requirements of this interface.",
    "export interface ServiceNetworkResponse<T = any> \x7b",
    "  data: T;",
    "\x7d",
    "",
    "// A network client which can send requests.",
    "// AxiosInstance fulfills the requirements of this interface and can be passed in via",
    "//   (axios as ServiceNetworkClient)",
    "export default interface ServiceNetworkClient \x7b",
    "  // Send a POST network request to a given path.",
    "  // The path will not include the domain and will be something like \"/users/add\"",
    "  // The data will be the a JSON string to send as the request payload.",
    "  post<T = any, R = ServiceNetworkResponse<T>>(path: string, data?: any): Promise<R>;",
    "\x7d"]

/-- The module with the network client's interface. -/
def clientModule : Module :=
  { declarations := [verbatim (String.intercalate "\n" clientSource)] }

end Service

namespace KnownTypes

/-- The module of a service. Every request and response type has to be known. -/
def serviceModule (known : KnownTypes) (service : Service) : Except GenerationError Module := do
  let rpcs ← service.rpcs.mapM (known.resolveRpc service)
  let imports ← service.imports rpcs
  return { imports := imports
           sortImports := true
           declarations := [(service.clientClass rpcs).fragments] }

end KnownTypes

end Typescribe
