import LiveComponent.Config
import LiveComponent.Table
import LiveComponent.Url

namespace LiveComponent

/-!
# Remote sources

Sources are only fetched over the secure web protocol and from hosts that the configuration allows.
-/

namespace Remote

/-- Whether the host is an allowed domain or lies below one. -/
def isAllowed (config : Config) (host : Text) : Bool :=
  config.allowedDomains.any fun domain =>
    host == domain || Text.endsIn host ('.' :: domain)

/-- The address from which a source may be fetched. -/
def check (config : Config) (address : Text) : Except Failure Url :=
  let reject (reason : Text) : Except Failure Url := .error (.fetch address reason)
  match Url.ofText address with
  | .error error => reject error.message
  | .ok none => reject "only https URLs may be imported"
  | .ok (some url) =>
    if url.scheme ≠ "https".toList then
      reject "only https URLs may be imported"
    else if isAllowed config url.host then
      .ok url
    else
      reject ("host ".toList ++ url.host ++ " is not an allowed import domain".toList)

/-- Fetch a source from known bodies by their addresses; the flag tells whether addresses are checked
first. -/
def fetch (config : Config) (checks : Bool) (bodies : Table Text) (address : Text) :
    Except Failure Text := do
  if checks then
    let _ ← check config address
  match bodies.get? address with
  | some body => return body
  | none => throw (.fetch address "HTTP 404 Not Found")

end Remote

end LiveComponent
