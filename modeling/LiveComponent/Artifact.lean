import LiveComponent.Failure
import LiveComponent.Source
import LiveComponent.Time.Instant

namespace LiveComponent

/-!
# Artifacts and answers

An artifact is a compiled component with the handle of its loaded module.  The answer to a request holds
an artifact or tells what went wrong.
-/

/-- What is known of the origin of a component. -/
structure ComponentMetadata where
  name : Option Text
  description : Option Text
  tags : List Text
  sourceUrl : Option Text
deriving DecidableEq, Repr

namespace ComponentMetadata

/-- The metadata of an origin. -/
def ofOrigin (origin : Origin) : ComponentMetadata :=
  ⟨origin.name, origin.description, origin.tags, origin.url⟩

/-- The metadata that a value stands for. -/
def ofJson? (json : Json) : Option ComponentMetadata := do
  let fields ← json.fields? ["name", "description", "tags", "sourceUrl"]
  let name ← fields.orNull "name" Json.asText?
  let description ← fields.orNull "description" Json.asText?
  let tags ← fields.required "tags" Json.asTexts?
  let sourceUrl ← fields.orNull "sourceUrl" Json.asText?
  return { name, description, tags, sourceUrl }

/-- The value of metadata. -/
def toJson (metadata : ComponentMetadata) : Json :=
  .ofMembers
    [
      ("name", .ofText? metadata.name),
      ("description", .ofText? metadata.description),
      ("tags", .ofTexts metadata.tags),
      ("sourceUrl", .ofText? metadata.sourceUrl)
    ]

end ComponentMetadata

/-- A compiled component. -/
structure Artifact where
  compiledCode : Text
  inputHash : Text
  outputHash : Text
  compiledAt : Instant
  compilerTag : Text
  /-- The handle of the loaded module; whoever discards the artifact releases it. -/
  loadUrl : Option Text
  byteSize : Nat
  dependencies : List Text
  /-- The path of the component among the exports. -/
  componentExport : Option Text
  metadata : Option ComponentMetadata
deriving DecidableEq, Repr

namespace Artifact

/-- The instant that a value stands for. -/
def instantOf? (json : Json) : Option Instant :=
  json.asText?.bind Instant.ofText?

/-- The artifact that a value stands for. -/
def ofJson? (json : Json) : Option Artifact := do
  let fields ← json.fields?
    ["compiledCode", "inputHash", "outputHash", "compiledAt", "compilerVersionTag", "loadUrl",
      "byteSize", "dependencies", "componentExport", "metadata"]
  let compiledCode ← fields.required "compiledCode" Json.asText?
  let inputHash ← fields.required "inputHash" Json.asText?
  let outputHash ← fields.required "outputHash" Json.asText?
  let compiledAt ← fields.required "compiledAt" instantOf?
  let compilerTag ← fields.required "compilerVersionTag" Json.asText?
  let loadUrl ← fields.orNull "loadUrl" Json.asText?
  let byteSize ← fields.required "byteSize" Json.asWord?
  let dependencies ← fields.required "dependencies" Json.asTexts?
  let componentExport ← fields.maybe "componentExport" Json.asText?
  let metadata ← fields.maybe "metadata" ComponentMetadata.ofJson?
  return { compiledCode, inputHash, outputHash, compiledAt, compilerTag, loadUrl, byteSize,
           dependencies, componentExport, metadata }

/-- The value of an artifact. -/
def toJson (artifact : Artifact) : Json :=
  .ofMembers
    [
      ("compiledCode", .text artifact.compiledCode),
      ("inputHash", .text artifact.inputHash),
      ("outputHash", .text artifact.outputHash),
      ("compiledAt", .text artifact.compiledAt.toText),
      ("compilerVersionTag", .text artifact.compilerTag),
      ("loadUrl", .ofText? artifact.loadUrl),
      ("byteSize", .ofNat artifact.byteSize),
      ("dependencies", .ofTexts artifact.dependencies),
      ("componentExport", .ofText? artifact.componentExport),
      ("metadata", (artifact.metadata.map ComponentMetadata.toJson).getD .null)
    ]

end Artifact

/-- The answer to a request. -/
structure Answer where
  success : Bool
  artifact : Option Artifact
  /-- The message of the failure. -/
  error : Option Text
  errorKind : Option FailureKind
  warnings : List Text
  fromCache : Bool
deriving DecidableEq, Repr

namespace Answer

/-- The answer of a success. -/
def ofArtifact (artifact : Artifact) (warnings : List Text) (fromCache : Bool) : Answer :=
  ⟨true, some artifact, none, none, warnings, fromCache⟩

/-- The answer of a failure.  An artifact is attached only if the source was compiled. -/
def ofFailure (failure : Failure) (warnings : List Text) (artifact : Option Artifact) : Answer :=
  ⟨false, artifact, some failure.message, some failure.kind, warnings, false⟩

/-- The value of an answer. -/
def toJson (answer : Answer) : Json :=
  .ofMembers
    [
      ("success", .bool answer.success),
      ("artifact", (answer.artifact.map Artifact.toJson).getD .null),
      ("error", .ofText? answer.error),
      ("errorKind", .ofText? (answer.errorKind.map FailureKind.name)),
      ("warnings", .ofTexts answer.warnings),
      ("fromCache", .bool answer.fromCache)
    ]

end Answer

end LiveComponent
