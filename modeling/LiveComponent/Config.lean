import LiveComponent.Failure
import LiveComponent.Json.Reader
import LiveComponent.Json.Record
import LiveComponent.Text.Blank

namespace LiveComponent

/-!
# Configuration

Plain values with defaults, their written form, and the conditions under which they are usable.
-/

/-- The UI framework of which all loaded modules share one instance. -/
structure Framework where
  /-- The package name of the framework. -/
  name : Text := "react"
  /-- The package name of its DOM binding. -/
  domBinding : Text := "react-dom"
  /-- Local addresses of the framework's entry points, in ascending order of specifiers. -/
  shims : List (Text × Text) :=
    [
      ("react".toList, "/shims/react.js".toList),
      ("react-dom".toList, "/shims/react-dom.js".toList),
      ("react-dom/client".toList, "/shims/react-dom-client.js".toList),
      ("react/jsx-runtime".toList, "/shims/react-jsx-runtime.js".toList)
    ]
  /-- The function that makes an element. -/
  factory : Text := "React.createElement"
  /-- The element type of fragments. -/
  fragment : Text := "React.Fragment"
deriving DecidableEq, Repr

namespace Framework

/-- The framework that a value stands for; fields that are left out have their defaults. -/
def ofJson? (json : Json) : Option Framework := do
  let default : Framework := {}
  let fields ← json.fields? ["name", "domBinding", "shims", "jsxFactory", "jsxFragment"]
  let name ← fields.withDefault "name" default.name Json.asText?
  let domBinding ← fields.withDefault "domBinding" default.domBinding Json.asText?
  let shims ← fields.withDefault "shims" default.shims Json.textMap?
  let factory ← fields.withDefault "jsxFactory" default.factory Json.asText?
  let fragment ← fields.withDefault "jsxFragment" default.fragment Json.asText?
  return { name, domBinding, shims, factory, fragment }

/-- The value of a framework. -/
def toJson (framework : Framework) : Json :=
  .ofMembers
    [
      ("name", .text framework.name),
      ("domBinding", .text framework.domBinding),
      ("shims", .object (framework.shims.map fun (name, address) => (name, .text address))),
      ("jsxFactory", .text framework.factory),
      ("jsxFragment", .text framework.fragment)
    ]

end Framework

/-- The configuration of a pipeline. -/
structure Config where
  /-- Written on every artifact and on the stored document. -/
  compilerTag : Text := "canvas-compiler@0.1.0"
  /-- The highest number of cache entries. -/
  cacheCapacity : Nat := 100
  /-- The time limit of a load in milliseconds. -/
  defaultTimeout : Nat := 10000
  /-- The host that serves bare packages. -/
  mirrorHost : Text := "esm.sh"
  framework : Framework := {}
  /-- The hosts from which sources may be imported. -/
  allowedDomains : List Text :=
    [
      "esm.sh".toList,
      "unpkg.com".toList,
      "cdn.jsdelivr.net".toList,
      "cdn.skypack.dev".toList
    ]
  /-- The key of the stored document. -/
  persistenceKey : Text := "component-cache"
  /-- How many execution failures are remembered. -/
  failureLogCapacity : Nat := 8
deriving DecidableEq, Repr

namespace Config

/-- A usable configuration has room for an entry, a bare mirror host and a compiler tag. -/
def validate (config : Config) : Except Failure Unit :=
  if config.cacheCapacity = 0 then
    .error (.config "cacheCapacity must be greater than zero")
  else if Text.isBlankText config.mirrorHost || config.mirrorHost.contains '/' then
    .error (.config ("mirrorHost must be a bare host name, got \"".toList ++ config.mirrorHost ++
      "\"".toList))
  else if config.compilerTag.isEmpty then
    .error (.config "compilerVersionTag must not be empty")
  else
    .ok ()

/-- The configuration that a value stands for; fields that are left out have their defaults. -/
def ofJson? (json : Json) : Option Config := do
  let default : Config := {}
  let fields ← json.fields?
    ["compilerVersionTag", "cacheCapacity", "defaultTimeoutMs", "mirrorHost", "framework",
      "allowedImportDomains", "persistenceKey", "failureLogCapacity"]
  let compilerTag ← fields.withDefault "compilerVersionTag" default.compilerTag Json.asText?
  let cacheCapacity ← fields.withDefault "cacheCapacity" default.cacheCapacity Json.asWord?
  let defaultTimeout ← fields.withDefault "defaultTimeoutMs" default.defaultTimeout Json.asWord?
  let mirrorHost ← fields.withDefault "mirrorHost" default.mirrorHost Json.asText?
  let framework ← fields.withDefault "framework" default.framework Framework.ofJson?
  let allowedDomains ←
    fields.withDefault "allowedImportDomains" default.allowedDomains Json.asTexts?
  let persistenceKey ← fields.withDefault "persistenceKey" default.persistenceKey Json.asText?
  let failureLogCapacity ←
    fields.withDefault "failureLogCapacity" default.failureLogCapacity Json.asWord?
  return { compilerTag, cacheCapacity, defaultTimeout, mirrorHost, framework, allowedDomains,
           persistenceKey, failureLogCapacity }

/-- The value of a configuration. -/
def toJson (config : Config) : Json :=
  .ofMembers
    [
      ("compilerVersionTag", .text config.compilerTag),
      ("cacheCapacity", .ofNat config.cacheCapacity),
      ("defaultTimeoutMs", .ofNat config.defaultTimeout),
      ("mirrorHost", .text config.mirrorHost),
      ("framework", config.framework.toJson),
      ("allowedImportDomains", .ofTexts config.allowedDomains),
      ("persistenceKey", .text config.persistenceKey),
      ("failureLogCapacity", .ofNat config.failureLogCapacity)
    ]

/-- The usable configuration that a text stands for. -/
def ofText (text : Text) : Except Failure Config :=
  match (Json.read? text).bind ofJson? with
  | some config => (config.validate).map fun _ => config
  | none => .error (.config "the document does not describe a configuration")

end Config

end LiveComponent
