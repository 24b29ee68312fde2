import LiveComponent.Proofs.ImportRewriting

namespace LiveComponent

/-!
# Resolving a resolution

Addresses are their own resolutions, and so is all that the mirror serves.  Only a local address may be a bare name,
which is then resolved like any other one.
-/

namespace Specifier

variable
  {config : Config}
  {specifier shim : Text}

/-- The mirror puts something around each specifier. -/
theorem mirrored_ne
    (config : Config)
    (specifier : Text) :
    mirrored config specifier ≠ specifier := by
  intro same
  have length := congrArg List.length same
  unfold mirrored at length
  generalize "https://".toList = scheme, "external=".toList = parameter at length
  simp only [List.length_append, List.length_singleton] at length
  omega

/-- The texts that are their own resolutions. -/
theorem resolve_eq_self_iff :
    resolve config specifier = specifier ↔
      isAddress specifier = true ∨ config.framework.shims.lookup specifier = some specifier := by
  unfold resolve
  split
  next address =>
    exact iff_of_true rfl (.inl address)
  next bare =>
    split
    next found =>
      simp [bare, found]
    next missing =>
      simp [bare, missing, mirrored_ne]

/-- A specifier that has a local address is resolved to it. -/
theorem resolve_of_lookup
    (bare : isAddress specifier = false)
    (found : config.framework.shims.lookup specifier = some shim) :
    resolve config specifier = shim := by
  simp [resolve, bare, found]

/-- Resolving a resolution changes nothing, exactly if the local address of the specifier, where it has one, is an
address indeed or stands for itself.  So all resolutions stay as they are exactly if this holds of every local address
that the configuration gives to a bare name. -/
theorem resolved_again_iff
    (config : Config) :
    (∀ specifier, resolve config (resolve config specifier) = resolve config specifier ↔
      ∀ shim, isAddress specifier = false → config.framework.shims.lookup specifier = some shim →
        isAddress shim = true ∨ config.framework.shims.lookup shim = some shim) ∧
    ((∀ specifier, resolve config (resolve config specifier) = resolve config specifier) ↔
      ∀ specifier shim, isAddress specifier = false → config.framework.shims.lookup specifier = some shim →
        isAddress shim = true ∨ config.framework.shims.lookup shim = some shim) := by
  have each (specifier : Text) :
      resolve config (resolve config specifier) = resolve config specifier ↔
        ∀ shim, isAddress specifier = false → config.framework.shims.lookup specifier = some shim →
          isAddress shim = true ∨ config.framework.shims.lookup shim = some shim := by
    constructor
    · intro same shim bare found
      rw [resolve_of_lookup bare found] at same
      exact resolve_eq_self_iff.mp same
    · intro stable
      rw [resolve_eq_self_iff]
      cases bare : isAddress specifier with
      | true =>
          rw [resolve, if_pos bare]
          exact .inl bare
      | false =>
          cases found : config.framework.shims.lookup specifier with
          | some shim =>
              rw [resolve_of_lookup bare found]
              exact stable shim bare found
          | none =>
              have served : resolve config specifier = mirrored config specifier := by
                simp [resolve, bare, found]
              rw [served]
              exact .inl (isAddress_mirrored config specifier)
  exact ⟨each, forall_congr' each⟩

/-- A usable configuration may give a bare name to a bare name, which is then served by the mirror. -/
theorem resolved_elsewhere_again :
    ∃ config : Config, config.validate = .ok () ∧
      resolve config "react".toList = "preact/compat".toList ∧
      resolve config "preact/compat".toList =
        "https://esm.sh/preact/compat?external=react,react-dom".toList := by
  refine ⟨{ framework := { shims := [("react".toList, "preact/compat".toList)] } }, rfl, ?_, ?_⟩ <;>
    decide +kernel

/-- By default every resolution stays as it is. -/
example (specifier : Text) : resolve {} (resolve {} specifier) = resolve {} specifier := by
  have given : ∀ shim ∈ ({} : Config).framework.shims, isAddress shim.2 = true := by decide +kernel
  have address : isAddress (resolve {} specifier) = true := by
    rcases resolve_cases {} specifier with ⟨same, address⟩ | ⟨shim, member, same⟩ | same
    · rwa [same]
    · rw [same]
      exact given shim member
    · rw [same]
      exact isAddress_mirrored {} specifier
  exact resolve_eq_self_iff.mpr (.inl address)

end Specifier

end LiveComponent
