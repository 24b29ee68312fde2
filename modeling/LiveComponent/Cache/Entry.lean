import LiveComponent.Artifact
import LiveComponent.Json.Printer

namespace LiveComponent

/-!
# Cache entries

An entry holds an artifact with the history of its use.  All entries are stored as one document that
names the version of the compiler.
-/

/-- A cached artifact. -/
structure CacheEntry where
  key : Text
  artifact : Artifact
  createdAt : Instant
  lastAccessAt : Instant
  hitCount : Nat
  byteSize : Nat
  /-- The order in which entries came. -/
  seq : Nat
deriving DecidableEq, Repr

namespace CacheEntry

/-- How many milliseconds of recency a hit is worth. -/
def hitWeight : Nat := 1000000

/-- How much the entry is worth, as an integer of 64 bits. -/
def score (entry : CacheEntry) : Int :=
  (entry.lastAccessAt.millis + entry.hitCount * hitWeight).bmod UInt64.size

/-- The entry after one more hit.  The count has 64 bits. -/
def hit (entry : CacheEntry) (now : Instant) : CacheEntry :=
  { entry with hitCount := (entry.hitCount + 1) % UInt64.size, lastAccessAt := now }

/-- The entry that a value stands for. -/
def ofJson? (json : Json) : Option CacheEntry := do
  let fields ← json.fields?
    ["key", "artifact", "createdAt", "lastAccessAt", "hitCount", "byteSize", "seq"]
  let key ← fields.required "key" Json.asText?
  let artifact ← fields.required "artifact" Artifact.ofJson?
  let createdAt ← fields.required "createdAt" Artifact.instantOf?
  let lastAccessAt ← fields.required "lastAccessAt" Artifact.instantOf?
  let hitCount ← fields.required "hitCount" Json.asWord?
  let byteSize ← fields.required "byteSize" Json.asWord?
  let seq ← fields.withDefault "seq" 0 Json.asWord?
  return { key, artifact, createdAt, lastAccessAt, hitCount, byteSize, seq }

/-- The value of an entry. -/
def toJson (entry : CacheEntry) : Json :=
  .ofMembers
    [
      ("key", .text entry.key),
      ("artifact", entry.artifact.toJson),
      ("createdAt", .text entry.createdAt.toText),
      ("lastAccessAt", .text entry.lastAccessAt.toText),
      ("hitCount", .ofNat entry.hitCount),
      ("byteSize", .ofNat entry.byteSize),
      ("seq", .ofNat entry.seq)
    ]

end CacheEntry

/-- The stored form of a cache. -/
structure CacheDocument where
  /-- The tag of the compiler that made the artifacts. -/
  version : Text
  entries : List CacheEntry
deriving DecidableEq, Repr

namespace CacheDocument

/-- The document that a value stands for. -/
def ofJson? (json : Json) : Option CacheDocument := do
  let fields ← json.fields? ["version", "entries"]
  let version ← fields.required "version" Json.asText?
  let entries ← fields.required "entries" fun value =>
    value.asList?.bind fun items => items.mapM CacheEntry.ofJson?
  return { version, entries }

/-- The value of a document. -/
def toJson (document : CacheDocument) : Json :=
  .ofMembers
    [
      ("version", .text document.version),
      ("entries", .list (document.entries.map CacheEntry.toJson))
    ]

/-- The document that a text stands for. -/
def ofText? (text : Text) : Option CacheDocument :=
  (Json.read? text).bind ofJson?

/-- The text of a document. -/
def toText (document : CacheDocument) : Text :=
  document.toJson.print

end CacheDocument

end LiveComponent
