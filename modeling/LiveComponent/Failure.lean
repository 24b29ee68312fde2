import LiveComponent.Json.Basic

namespace LiveComponent

/-!
# Failures

Every stage of the component pipeline reports a failure of this type.  The kind of a failure has a
stable name; its message is the text shown to a user.
-/

/-- The class of a failure. -/
inductive FailureKind where
  | missingSource
  | unsupportedFormat
  | importNormalization
  | transpile
  | moduleResolution
  | loadTimeout
  | executionValidation
  | noComponentFound
  | cacheIo
  | fetch
  | config
deriving DecidableEq, Repr

/-- What can go wrong between a request and a loaded component. -/
inductive Failure where
  /-- There is no source text. -/
  | missingSource
  /-- The source has a form that cannot become a module. -/
  | unsupportedFormat (reason : Text)
  /-- The imports could not be normalized. -/
  | importNormalization (reason : Text)
  /-- Markup could not be lowered; the warnings were gathered before. -/
  | transpile (reason : Text) (warnings : List Text)
  /-- An import specifier has no resolution. -/
  | moduleResolution (specifier reason : Text)
  /-- A load took longer than its limit in milliseconds. -/
  | loadTimeout (limit : Nat)
  /-- The module could not be instantiated, or threw. -/
  | executionValidation (reason : Text)
  /-- No export can be rendered. -/
  | noComponentFound
  /-- The store of the cache failed. -/
  | cacheIo (reason : Text)
  /-- A remote source could not be fetched. -/
  | fetch (url reason : Text)
  /-- The configuration is not usable. -/
  | config (reason : Text)
deriving DecidableEq, Repr

namespace FailureKind

/-- The stable name of the class. -/
def name : FailureKind → Text
  | missingSource => "MissingSourceError"
  | unsupportedFormat => "UnsupportedFormatError"
  | importNormalization => "ImportNormalizationError"
  | transpile => "TranspileError"
  | moduleResolution => "ModuleResolutionError"
  | loadTimeout => "LoadTimeoutError"
  | executionValidation => "ExecutionValidationError"
  | noComponentFound => "NoComponentFoundError"
  | cacheIo => "CacheIOError"
  | fetch => "FetchError"
  | config => "ConfigError"

/-- The tag of the class in written form. -/
def tag : FailureKind → Text
  | missingSource => "missingSource"
  | unsupportedFormat => "unsupportedFormat"
  | importNormalization => "importNormalization"
  | transpile => "transpile"
  | moduleResolution => "moduleResolution"
  | loadTimeout => "loadTimeout"
  | executionValidation => "executionValidation"
  | noComponentFound => "noComponentFound"
  | cacheIo => "cacheIo"
  | fetch => "fetch"
  | config => "config"

end FailureKind

namespace Failure

/-- The class of the failure. -/
def kind : Failure → FailureKind
  | missingSource => .missingSource
  | unsupportedFormat _ => .unsupportedFormat
  | importNormalization _ => .importNormalization
  | transpile _ _ => .transpile
  | moduleResolution _ _ => .moduleResolution
  | loadTimeout _ => .loadTimeout
  | executionValidation _ => .executionValidation
  | noComponentFound => .noComponentFound
  | cacheIo _ => .cacheIo
  | fetch _ _ => .fetch
  | config _ => .config

/-- The message of the failure. -/
def message : Failure → Text
  | missingSource => "no component source was provided"
  | unsupportedFormat reason => "unsupported source format: ".toList ++ reason
  | importNormalization reason => "import normalization failed: ".toList ++ reason
  | transpile reason _ => "markup transpilation failed: ".toList ++ reason
  | moduleResolution specifier reason =>
    "cannot resolve module specifier \"".toList ++ specifier ++ "\": ".toList ++ reason
  | loadTimeout limit => "module load timed out after ".toList ++ Text.ofNat limit ++ " ms".toList
  | executionValidation reason => "module failed validation: ".toList ++ reason
  | noComponentFound => "module does not export a renderable component"
  | cacheIo reason => "cache storage error: ".toList ++ reason
  | fetch url reason =>
    "failed to fetch component source from ".toList ++ url ++ ": ".toList ++ reason
  | config reason => "configuration error: ".toList ++ reason

/-- The warnings that the failure carries itself. -/
def warnings : Failure → List Text
  | transpile _ warnings => warnings
  | _ => []

/-- Whether the failure arose at or after module resolution. -/
def isExecutionStage (failure : Failure) : Bool :=
  match failure.kind with
  | .moduleResolution | .loadTimeout | .executionValidation | .noComponentFound => true
  | _ => false

/-- The value of a failure: an object with the tag of its class and its parts.  A failure that is a
single text or number has no such object. -/
def toJson? : Failure → Option Json
  | missingSource => some (.ofMembers [("kind", .text FailureKind.missingSource.tag)])
  | noComponentFound => some (.ofMembers [("kind", .text FailureKind.noComponentFound.tag)])
  | transpile reason warnings =>
    some (.ofMembers
      [("kind", .text FailureKind.transpile.tag), ("message", .text reason),
        ("warnings", .ofTexts warnings)])
  | moduleResolution specifier reason =>
    some (.ofMembers
      [("kind", .text FailureKind.moduleResolution.tag), ("specifier", .text specifier),
        ("reason", .text reason)])
  | fetch url reason =>
    some (.ofMembers
      [("kind", .text FailureKind.fetch.tag), ("url", .text url), ("reason", .text reason)])
  | _ => none

end Failure

end LiveComponent
