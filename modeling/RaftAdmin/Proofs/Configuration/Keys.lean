import RaftAdmin.Config.Registry

/-!
# What the registry knows

Laws of the key registry: which key a name finds, and where its default comes from.

## What is proved

* `Registry.name_of_find?` — a name finds a key of this name.
* `Registry.mem_of_default` — a key with a default is declared, or was registered with it.
* `Registry.WithoutDefaults` — only declared keys have a default, whatever is registered or noted;
  so the key that a name finds has the declared default of the name, if any.
-/

namespace RaftAdmin

/-- No default of a declared key is empty. -/
theorem PropertyKey.default?_ne_empty : ∀ k ∈ PropertyKey.declared, k.default? ≠ some "" := by
  decide

namespace Registry

/-! ### Finding a key -/

theorem name_of_find? {r : Registry} {n : String} {k : PropertyKey}
    (h : r.find? n = some k) : k.name = n := by
  unfold find? declared? known? templated? at h
  split at h
  · rename_i hk
    obtain rfl := Option.some.inj h
    simpa using List.find?_some hk
  · split at h
    · rename_i hk
      obtain rfl := Option.some.inj h
      simpa using List.find?_some hk
    · obtain ⟨t, -, rfl⟩ := Option.map_eq_some_iff.mp h
      rfl

/-- A name that is registered has a key of this name. -/
theorem name_of_register (r : Registry) (n : String) : (r.register n).1.name = n := by
  unfold register
  split
  · rename_i hk
    exact name_of_find? hk
  · rfl

/-- A key with a default is a declared key or was registered with it. -/
theorem mem_of_default {r : Registry} {n v : String} {k : PropertyKey}
    (h : r.find? n = some k) (hv : k.default? = some v) :
    k ∈ PropertyKey.declared ++ r.known := by
  unfold find? declared? known? templated? at h
  split at h
  · rename_i hk
    obtain rfl := Option.some.inj h
    exact List.mem_append_left _ (List.mem_of_find?_eq_some hk)
  · split at h
    · rename_i hk
      obtain rfl := Option.some.inj h
      exact List.mem_append_right _ (List.mem_of_find?_eq_some hk)
    · obtain ⟨t, -, rfl⟩ := Option.map_eq_some_iff.mp h
      exact absurd hv (by simp [KeyTemplate.instantiate])

/-! ### Defaults -/

/-- None of the keys beyond the declared ones has a default. -/
def WithoutDefaults (r : Registry) : Prop := ∀ k ∈ r.known, k.default? = none

variable {r : Registry} {n : String} {k : PropertyKey}

theorem default?_of_templated? (h : templated? n = some k) : k.default? = none := by
  obtain ⟨t, -, rfl⟩ := Option.map_eq_some_iff.mp h
  rfl

/-- Only the declared key of a name has a default. -/
theorem WithoutDefaults.default?_find? (h : r.WithoutDefaults) (n : String) :
    (r.find? n).bind PropertyKey.default? = (declared? n).bind PropertyKey.default? := by
  unfold find?
  cases hdeclared : declared? n with
  | some k => rfl
  | none =>
    cases hknown : r.known? n with
    | some k => exact h k (List.mem_of_find?_eq_some hknown)
    | none =>
      cases htemplated : templated? n with
      | none => rfl
      | some k => exact default?_of_templated? htemplated

theorem WithoutDefaults.insert (h : r.WithoutDefaults) (hk : k.default? = none) :
    (r.insert k).WithoutDefaults :=
  List.forall_mem_cons.mpr ⟨hk, h⟩

theorem WithoutDefaults.note (h : r.WithoutDefaults) (n : String) :
    (r.note n).WithoutDefaults := by
  unfold Registry.note
  split
  · rename_i k _ _ hk
    exact h.insert (default?_of_templated? hk)
  · exact h

theorem WithoutDefaults.noteAll (h : r.WithoutDefaults) (names : List String) :
    (r.noteAll names).WithoutDefaults := by
  induction names generalizing r with
  | nil => exact h
  | cons n names ih => exact ih (h.note n)

theorem WithoutDefaults.format (h : r.WithoutDefaults) (t : KeyTemplate) (service : String) :
    (r.format t service).2.WithoutDefaults := by
  simp only [Registry.format]
  split
  · exact h
  · exact h.insert rfl

/-- The key of a family has no default, whether it is known already or made. -/
theorem WithoutDefaults.default?_format (h : r.WithoutDefaults) (t : KeyTemplate)
    (service : String) : (r.format t service).1.default? = none := by
  simp only [Registry.format]
  split
  · rename_i k hknown
    exact h k (List.mem_of_find?_eq_some hknown)
  · rfl

theorem WithoutDefaults.register (h : r.WithoutDefaults) (n : String) :
    (r.register n).2.WithoutDefaults := by
  unfold Registry.register
  split
  · exact h.note n
  · exact h.insert rfl

end Registry

end RaftAdmin
