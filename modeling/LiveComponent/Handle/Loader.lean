import LiveComponent.Exports
import LiveComponent.Hash.Sha256
import LiveComponent.Table
import LiveComponent.Text.Utf8

namespace LiveComponent

/-!
# Loading modules

A loader makes the code of a module loadable under a handle and forgets it when the handle is released.
Equal code has equal handles.
-/

/-- A handle of a loadable module. -/
structure Handle where
  url : Text
  byteSize : Nat
deriving DecidableEq, Repr

namespace Handle

/-- The start of the addresses that are gone when the session ends. -/
def ephemeralLead : Text := "blob:"

/-- Whether handles at the address end with the session. -/
def isEphemeral (url : Text) : Bool :=
  ephemeralLead.isPrefixOf url

/-- The handle of code. -/
def ofCode (code : Text) : Handle :=
  ⟨"blob:canvas/".toList ++ sha256Hex code, Text.byteSize code⟩

/-- The size of a handle is that of its code. -/
@[simp]
theorem byteSize_ofCode (code : Text) : (ofCode code).byteSize = Text.byteSize code := rfl

/-- Equal addresses stand for equal hashes. -/
theorem hash_of_url_eq {first second : Text} (same : (ofCode first).url = (ofCode second).url) :
    sha256Hex first = sha256Hex second :=
  List.append_cancel_left same

end Handle

/-- A loader with the modules that are loadable. -/
structure Loader where
  /-- The code of each module under the address of its handle. -/
  modules : Table Text := []
  /-- How long a load waits before it starts, in milliseconds. -/
  delay : Nat := 0
  /-- Whether no module can be made loadable. -/
  offline : Bool := false
  /-- Whether every load breaks down. -/
  breaks : Bool := false
  /-- The number of loads that were started. -/
  loads : Nat := 0
  /-- The released addresses, latest first. -/
  released : List Text := []
deriving DecidableEq, Repr

namespace Loader

/-- Make code loadable. -/
def materialize (loader : Loader) (code : Text) : Except Failure (Loader × Handle) :=
  if loader.offline then
    .error (.config "module loader is offline")
  else
    let handle := Handle.ofCode code
    let modules :=
      if (loader.modules.get? handle.url).isSome then loader.modules
      else loader.modules.put handle.url code
    .ok ({ loader with modules := modules }, handle)

/-- Whether the module of an address is loadable. -/
def isResident (loader : Loader) (url : Text) : Bool :=
  (loader.modules.get? url).isSome

/-- The exports of the module of an address. -/
def load (loader : Loader) (url : Text) : Except Failure Exports :=
  match loader.modules.get? url with
  | some code => Exports.ofText code
  | none =>
    .error (.executionValidation ("module handle ".toList ++ url ++ " was released".toList))

/-- Forget the module of an address. -/
def release (loader : Loader) (url : Text) : Loader :=
  { loader with modules := loader.modules.erase url, released := url :: loader.released }

end Loader

end LiveComponent
