import LiveComponent.Classification
import LiveComponent.Json.Reader
import LiveComponent.Json.Record

namespace LiveComponent

/-!
# Requests

A request brings the source of a component, the channel through which it arrived, and options.
-/

/-- The channel through which a source arrived. -/
inductive Provenance where
  | generated
  | library
  | urlImport
  | userProvided
deriving DecidableEq, Repr

namespace Provenance

/-- The written names of the channels. -/
def words : List (String × Provenance) :=
  [("generated", generated), ("library", library), ("url-import", urlImport),
    ("user-provided", userProvided)]

/-- The written name of a channel. -/
def name : Provenance → Text
  | generated => "generated"
  | library => "library"
  | urlImport => "url-import"
  | userProvided => "user-provided"

/-- Whether the source may have to be fetched first. -/
def isRemote : Provenance → Bool
  | library | urlImport => true
  | generated | userProvided => false

/-- Whether artifacts are cached unless the request says otherwise.  A source given by a user changes
all the time, so it is not. -/
def cachesByDefault (provenance : Provenance) : Bool :=
  provenance != userProvided

end Provenance

namespace SourceFormat

/-- The written names of the forms of a source. -/
def words : List (String × SourceFormat) :=
  [("module", module), ("legacy-script", legacyScript)]

/-- The written name of a form. -/
def name : SourceFormat → Text
  | module => "module"
  | legacyScript => "legacy-script"

end SourceFormat

/-- How a source is to be compiled. -/
structure CompileOptions where
  /-- Whether to use the cache; without an answer the channel decides. -/
  useCache : Option Bool := none
  forceRecompile : Bool := false
  debug : Bool := false
  /-- The time limit of the load in milliseconds; without an answer the configuration decides. -/
  timeout : Option Nat := none
deriving DecidableEq, Repr

/-- Where a remote component comes from. -/
structure Origin where
  url : Option Text := none
  name : Option Text := none
  description : Option Text := none
  tags : List Text := []
deriving DecidableEq, Repr

/-- A request to compile a source. -/
structure SourceModule where
  code : Text := []
  provenance : Provenance
  /-- The form of the source; without an answer its text decides. -/
  declaredFormat : Option SourceFormat := none
  options : CompileOptions := {}
  origin : Option Origin := none
deriving DecidableEq, Repr

/-- The options that a value stands for. -/
def CompileOptions.ofJson? (json : Json) : Option CompileOptions := do
  let fields ← json.fields? ["useCache", "forceRecompile", "debug", "timeoutMs"]
  let useCache ← fields.maybe "useCache" Json.asBool?
  let forceRecompile ← fields.withDefault "forceRecompile" false Json.asBool?
  let debug ← fields.withDefault "debug" false Json.asBool?
  let timeout ← fields.maybe "timeoutMs" Json.asWord?
  return { useCache, forceRecompile, debug, timeout }

/-- The value of options. -/
def CompileOptions.toJson (options : CompileOptions) : Json :=
  .ofMembers
    [
      ("useCache", (options.useCache.map Json.bool).getD .null),
      ("forceRecompile", .bool options.forceRecompile),
      ("debug", .bool options.debug),
      ("timeoutMs", (options.timeout.map Json.ofNat).getD .null)
    ]

/-- The origin that a value stands for. -/
def Origin.ofJson? (json : Json) : Option Origin := do
  let fields ← json.fields? ["url", "name", "description", "tags"]
  let url ← fields.maybe "url" Json.asText?
  let name ← fields.maybe "name" Json.asText?
  let description ← fields.maybe "description" Json.asText?
  let tags ← fields.withDefault "tags" [] Json.asTexts?
  return { url, name, description, tags }

/-- The value of an origin. -/
def Origin.toJson (origin : Origin) : Json :=
  .ofMembers
    [
      ("url", .ofText? origin.url),
      ("name", .ofText? origin.name),
      ("description", .ofText? origin.description),
      ("tags", .ofTexts origin.tags)
    ]

namespace SourceModule

/-- The request that a value stands for; only the channel has no default. -/
def ofJson? (json : Json) : Option SourceModule := do
  let fields ← json.fields? ["code", "provenance", "declaredFormat", "options", "origin"]
  let code ← fields.withDefault "code" [] Json.asText?
  let provenance ← fields.required "provenance" (Json.word? Provenance.words)
  let declaredFormat ← fields.maybe "declaredFormat" (Json.word? SourceFormat.words)
  let options ← fields.withDefault "options" {} CompileOptions.ofJson?
  let origin ← fields.maybe "origin" Origin.ofJson?
  return { code, provenance, declaredFormat, options, origin }

/-- The value of a request. -/
def toJson (request : SourceModule) : Json :=
  .ofMembers
    [
      ("code", .text request.code),
      ("provenance", .text request.provenance.name),
      ("declaredFormat", .ofText? (request.declaredFormat.map SourceFormat.name)),
      ("options", request.options.toJson),
      ("origin", (request.origin.map Origin.toJson).getD .null)
    ]

/-- The request that a text stands for. -/
def ofText? (text : Text) : Option SourceModule :=
  (Json.read? text).bind ofJson?

/-- Whether the request uses the cache. -/
def wantsCache (request : SourceModule) : Bool :=
  request.options.useCache.getD request.provenance.cachesByDefault

end SourceModule

end LiveComponent
