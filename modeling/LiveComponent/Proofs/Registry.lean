import LiveComponent.Handle.Registry

namespace LiveComponent

/-!
# Counting references

What each operation of a registry does to the number of references of every handle, and the condition
that they all keep: exactly the handles with references are loadable.
-/

namespace Loader

/-- Making code loadable changes nothing but the modules. -/
theorem materialize_eq_ok
    {loader after : Loader}
    {code : Text}
    {handle : Handle}
    (made : loader.materialize code = .ok (after, handle)) :
    handle = Handle.ofCode code ∧
      after = { loader with
        modules :=
          if (loader.modules.get? handle.url).isSome then loader.modules
          else loader.modules.put handle.url code } := by
  unfold materialize at made
  split at made
  · cases made
  · cases made
    exact ⟨rfl, rfl⟩

/-- After code is made loadable, its handle is resident and all others are as before. -/
theorem isResident_materialize
    {loader after : Loader}
    {code : Text}
    {handle : Handle}
    (made : loader.materialize code = .ok (after, handle))
    (url : Text) :
    after.isResident url = (decide (handle.url = url) || loader.isResident url) := by
  obtain ⟨-, rfl⟩ := materialize_eq_ok made
  unfold isResident
  by_cases present : (loader.modules.get? handle.url).isSome
  · by_cases same : handle.url = url
    · subst same
      simp [present]
    · simp [same, present]
  · by_cases same : handle.url = url
    · subst same
      simp [present, Table.get?_put]
    · simp [present, same, Table.get?_put]

/-- A released handle is not resident, and all others are as before. -/
theorem isResident_release
    (loader : Loader)
    (released url : Text) :
    (loader.release released).isResident url =
      (decide (released ≠ url) && loader.isResident url) := by
  unfold isResident release
  by_cases same : released = url <;> simp [Table.get?_erase, same]

end Loader

namespace Registry

/-- A registry in order: exactly the handles with references are loadable, and all of them end with the
session. -/
structure Sound (registry : Registry) : Prop where
  resident :
    ∀ url, registry.loader.isResident url = (registry.refs.get? url).isSome
  positive :
    ∀ url count, registry.refs.get? url = some count → 0 < count
  ephemeral :
    ∀ url count, registry.refs.get? url = some count → Handle.isEphemeral url = true

/-- A registry without references over a loader without modules is in order. -/
theorem sound_empty
    {loader : Loader}
    (fresh : loader.modules = []) :
    Sound { loader } where
  resident url := by
    simp [Loader.isResident, fresh, Table.get?]
  positive _ _ found := by cases found
  ephemeral _ _ found := by cases found

/-- A handle that has a count has this number of references. -/
theorem refCount_of_get?
    {registry : Registry}
    {url : Text}
    {count : Nat}
    (found : registry.refs.get? url = some count) :
    registry.refCount url = count := by
  simp [refCount, found]

/-- A handle without a count has no reference. -/
theorem refCount_of_get?_none
    {registry : Registry}
    {url : Text}
    (missing : registry.refs.get? url = none) :
    registry.refCount url = 0 := by
  simp [refCount, missing]

namespace Sound

variable {registry : Registry}

/-- A handle is counted exactly if it has a reference. -/
theorem isSome_iff
    (sound : Sound registry)
    (url : Text) :
    (registry.refs.get? url).isSome = true ↔ 0 < registry.refCount url := by
  cases found : registry.refs.get? url with
  | none =>
      simp [refCount_of_get?_none found]
  | some count =>
      simpa [refCount_of_get? found] using sound.positive url count found

/-- A handle is loadable exactly if it has a reference. -/
theorem isResident_iff
    (sound : Sound registry)
    (url : Text) :
    registry.loader.isResident url = true ↔ 0 < registry.refCount url := by
  rw [sound.resident url]
  exact sound.isSome_iff url

/-- Only handles that end with the session have references. -/
theorem isEphemeral_of_pos
    (sound : Sound registry)
    {url : Text}
    (held : 0 < registry.refCount url) :
    Handle.isEphemeral url = true := by
  obtain ⟨count, found⟩ := Option.isSome_iff_exists.mp ((sound.isSome_iff url).mpr held)
  exact sound.ephemeral url count found

/-- A handle with a reference can be used. -/
theorem isLive_of_pos
    (sound : Sound registry)
    {url : Text}
    (held : 0 < registry.refCount url) :
    registry.isLive url = true := by
  simp [isLive, (sound.isSome_iff url).mpr held]

/-- The loader may change its ways as long as it keeps its modules. -/
theorem withLoader
    (sound : Sound registry)
    {loader : Loader}
    (kept : loader.modules = registry.loader.modules) :
    Sound { registry with loader := loader } where
  resident url := by
    simpa [Loader.isResident, kept] using sound.resident url
  positive := sound.positive
  ephemeral := sound.ephemeral

/-- A handle may get a count when it is loadable from now on. -/
theorem put
    (sound : Sound registry)
    {loader : Loader}
    {url : Text}
    {count : Nat}
    (resident :
      ∀ other, loader.isResident other =
        (decide (url = other) || registry.loader.isResident other))
    (positive : 0 < count)
    (ephemeral : Handle.isEphemeral url = true) :
    Sound ⟨loader, registry.refs.put url count⟩ := by
  refine ⟨fun other => ?_, fun other value found => ?_, fun other value found => ?_⟩
  · rw [resident, Table.get?_put, sound.resident]
    by_cases same : url = other <;> simp [same]
  · rw [Table.get?_put] at found
    split at found
    · cases found
      exact positive
    · exact sound.positive other value found
  · rw [Table.get?_put] at found
    split at found
    next same =>
      exact same ▸ ephemeral
    next =>
      exact sound.ephemeral other value found

/-- A handle with references may get another count. -/
theorem withCount
    (sound : Sound registry)
    {url : Text}
    {count : Nat}
    (held : 0 < registry.refCount url)
    (positive : 0 < count) :
    Sound { registry with refs := registry.refs.put url count } := by
  refine sound.put (fun other => ?_) positive (sound.isEphemeral_of_pos held)
  by_cases same : url = other
  · subst same
    simp [(sound.isResident_iff url).mpr held]
  · simp [same]

end Sound

/-! ## Taking references -/

/-- The handle of code ends with the session. -/
theorem isEphemeral_ofCode
    (code : Text) :
    Handle.isEphemeral (Handle.ofCode code).url = true := by
  unfold Handle.isEphemeral Handle.ofCode
  generalize sha256Hex code = hash
  rfl

section Acquire

variable
  {registry after : Registry}
  {code : Text}
  {handle : Handle}

/-- Making code loadable and taking a reference, in terms of the loader. -/
theorem acquire_eq_ok
    (acquired : registry.acquire code = .ok (after, handle)) :
    registry.loader.materialize code = .ok (after.loader, handle) ∧
      after.refs = registry.refs.put handle.url (registry.refCount handle.url + 1) := by
  unfold acquire at acquired
  split at acquired
  next loader found made =>
    cases acquired
    exact ⟨made, rfl⟩
  next =>
    cases acquired

/-- Acquiring a handle adds one reference to it. -/
theorem refCount_acquire
    (acquired : registry.acquire code = .ok (after, handle))
    (url : Text) :
    after.refCount url = registry.refCount url + [handle.url].count url := by
  have counted := (acquire_eq_ok acquired).2
  by_cases same : handle.url = url
  · simp [refCount, counted, Table.get?_put, same]
  · simp [refCount, counted, Table.get?_put, same]

/-- Acquiring a handle releases none. -/
theorem released_acquire
    (acquired : registry.acquire code = .ok (after, handle)) :
    after.loader.released = registry.loader.released := by
  obtain ⟨-, same⟩ := Loader.materialize_eq_ok (acquire_eq_ok acquired).1
  rw [same]

/-- Acquiring a handle keeps the registry in order. -/
theorem Sound.acquire
    (sound : Sound registry)
    (acquired : registry.acquire code = .ok (after, handle)) :
    Sound after := by
  obtain ⟨made, counted⟩ := acquire_eq_ok acquired
  obtain ⟨rfl, -⟩ := Loader.materialize_eq_ok made
  have put := sound.put (Loader.isResident_materialize made)
    (Nat.succ_pos (registry.refCount (Handle.ofCode code).url)) (isEphemeral_ofCode code)
  rw [Nat.succ_eq_add_one, ← counted] at put
  exact put

end Acquire

section Retain

variable
  {registry after : Registry}
  {url : Text}
  {kept : Bool}

/-- Another reference is taken to a handle that has one; an address that outlives the session needs
none. -/
theorem retain_eq
    (retained : registry.retain url = (after, kept)) :
    (∃ count, registry.refs.get? url = some count ∧
        after = { registry with refs := registry.refs.put url (count + 1) } ∧ kept = true) ∨
      (registry.refs.get? url = none ∧ after = registry ∧ kept = !Handle.isEphemeral url) := by
  unfold retain at retained
  split at retained
  next count found =>
    cases retained
    exact .inl ⟨count, found, rfl, rfl⟩
  next missing =>
    cases retained
    exact .inr ⟨missing, rfl, rfl⟩

/-- Retaining adds one reference to a handle that ends with the session if it succeeds. -/
theorem refCount_retain
    (retained : registry.retain url = (after, kept))
    {other : Text}
    (ephemeral : Handle.isEphemeral other = true) :
    after.refCount other =
      registry.refCount other + (if kept then [url] else []).count other := by
  obtain ⟨count, found, rfl, rfl⟩ | ⟨missing, rfl, rfl⟩ := retain_eq retained
  · by_cases same : url = other
    · subst same
      simp [refCount, Table.get?_put, found]
    · simp [refCount, Table.get?_put, same]
  · by_cases same : url = other
    · subst same
      simp [ephemeral]
    · cases Handle.isEphemeral url <;> simp [same]

/-- Retaining releases no handle. -/
theorem released_retain
    (retained : registry.retain url = (after, kept)) :
    after.loader.released = registry.loader.released := by
  obtain ⟨count, -, rfl, -⟩ | ⟨-, rfl, -⟩ := retain_eq retained <;> rfl

/-- Retaining keeps the registry in order. -/
theorem Sound.retain
    (sound : Sound registry)
    (retained : registry.retain url = (after, kept)) :
    Sound after := by
  obtain ⟨count, found, rfl, -⟩ | ⟨-, rfl, -⟩ := retain_eq retained
  · have held : 0 < registry.refCount url := (sound.isSome_iff url).mp (by simp [found])
    exact sound.withCount held (Nat.succ_pos count)
  · exact sound

end Retain

/-! ## Dropping references -/

section Release

variable {registry : Registry}

/-- A handle with several references loses one of them. -/
theorem release_of_many
    {url : Text}
    (many : 1 < registry.refCount url) :
    registry.release url =
      { registry with refs := registry.refs.put url (registry.refCount url - 1) } := by
  cases found : registry.refs.get? url with
  | none =>
      simp [refCount_of_get?_none found] at many
  | some count =>
      rw [refCount_of_get? found] at many ⊢
      simp [release, found, many]

/-- A handle with one reference is forgotten by the loader. -/
theorem release_of_one
    {url : Text}
    (one : registry.refCount url = 1) :
    registry.release url = ⟨registry.loader.release url, registry.refs.erase url⟩ := by
  cases found : registry.refs.get? url with
  | none =>
      simp [refCount_of_get?_none found] at one
  | some count =>
      rw [refCount_of_get? found] at one
      simp [release, found, one]

/-- Nothing happens to a handle without references. -/
theorem release_of_none
    (sound : Sound registry)
    {url : Text}
    (none : registry.refCount url = 0) :
    registry.release url = registry := by
  cases found : registry.refs.get? url with
  | none =>
      simp [release, found]
  | some count =>
      have positive := sound.positive url count found
      rw [refCount_of_get? found] at none
      omega

/-- Releasing a handle takes one reference away from it, if there is one. -/
theorem refCount_release
    (sound : Sound registry)
    (url other : Text) :
    (registry.release url).refCount other = registry.refCount other - [url].count other := by
  rcases Nat.lt_trichotomy (registry.refCount url) 1 with none | one | many
  · rw [release_of_none sound (by omega)]
    by_cases same : url = other
    · subst same
      simp
      omega
    · simp [same]
  · rw [release_of_one one]
    by_cases same : url = other
    · subst same
      simp [refCount, Table.get?_erase] at one ⊢
      omega
    · simp [refCount, Table.get?_erase, same]
  · rw [release_of_many many]
    by_cases same : url = other
    · subst same
      simp [refCount, Table.get?_put]
    · simp [refCount, Table.get?_put, same]

/-- The loader forgets a handle exactly when its last reference is dropped. -/
theorem released_release
    (sound : Sound registry)
    (url : Text) :
    (registry.release url).loader.released =
      (if registry.refCount url = 1 then [url] else []) ++ registry.loader.released := by
  rcases Nat.lt_trichotomy (registry.refCount url) 1 with none | one | many
  · rw [release_of_none sound (by omega)]
    simp
    omega
  · rw [release_of_one one]
    simp [one, Loader.release]
  · rw [release_of_many many, if_neg (by omega)]
    rfl

/-- Releasing a handle keeps the registry in order. -/
theorem Sound.release
    (sound : Sound registry)
    (url : Text) :
    Sound (registry.release url) := by
  rcases Nat.lt_trichotomy (registry.refCount url) 1 with none | one | many
  · rw [release_of_none sound (by omega)]
    exact sound
  · rw [release_of_one one]
    refine ⟨fun other => ?_, fun other count found => ?_, fun other count found => ?_⟩
    · rw [Loader.isResident_release, Table.get?_erase, sound.resident]
      by_cases same : url = other <;> simp [same]
    · rw [Table.get?_erase] at found
      split at found
      · cases found
      · exact sound.positive other count found
    · rw [Table.get?_erase] at found
      split at found
      · cases found
      · exact sound.ephemeral other count found
  · rw [release_of_many many]
    exact sound.withCount (by omega) (by omega)

end Release

end Registry

end LiveComponent
