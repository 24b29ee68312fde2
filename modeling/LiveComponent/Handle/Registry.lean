import LiveComponent.Handle.Loader

namespace LiveComponent

/-!
# Counted handles

A registry counts the references to each handle and releases a handle to the loader when its last
reference is gone.
-/

/-- A loader with the number of references to each of its handles. -/
structure Registry where
  loader : Loader := {}
  refs : Table Nat := []
deriving DecidableEq, Repr

namespace Registry

/-- The number of references to a handle. -/
def refCount (registry : Registry) (url : Text) : Nat :=
  (registry.refs.get? url).getD 0

/-- The number of handles with references. -/
def liveCount (registry : Registry) : Nat :=
  registry.refs.length

/-- Whether the handle can be used: an address that outlives the session always can. -/
def isLive (registry : Registry) (url : Text) : Bool :=
  !Handle.isEphemeral url || (registry.refs.get? url).isSome

/-- Make code loadable and take a reference to its handle. -/
def acquire (registry : Registry) (code : Text) : Except Failure (Registry × Handle) :=
  match registry.loader.materialize code with
  | .ok (loader, handle) =>
    .ok (⟨loader, registry.refs.put handle.url (registry.refCount handle.url + 1)⟩, handle)
  | .error failure => .error failure

/-- Take another reference to a handle that is live. -/
def retain (registry : Registry) (url : Text) : Registry × Bool :=
  match registry.refs.get? url with
  | some count => ({ registry with refs := registry.refs.put url (count + 1) }, true)
  | none => (registry, !Handle.isEphemeral url)

/-- Drop a reference to a handle; the loader forgets the handle with its last reference. -/
def release (registry : Registry) (url : Text) : Registry :=
  match registry.refs.get? url with
  | none => registry
  | some count =>
    if 1 < count then { registry with refs := registry.refs.put url (count - 1) }
    else ⟨registry.loader.release url, registry.refs.erase url⟩

/-- Drop references to handles, one after the other. -/
def releaseAll (registry : Registry) (urls : List Text) : Registry :=
  urls.foldl release registry

end Registry

end LiveComponent
