import RaftAdmin.Proofs.Configuration.Reading

/-!
# Values are not empty

No layer holds an empty value, no default is empty, and so no key resolves to an empty value,
whatever references are replaced in it.

## The model

`Filled` is an invariant: each operation preserves it, hence it holds of every configuration that is
reached.

## What is proved

* `Reached.filled` — every configuration that is reached is filled.
* `Filled.get_ne_empty_of_default`, `Filled.get_ne_empty` — no key resolves to an empty value, if its
  default is not empty, as no default of the configuration is.
-/

namespace RaftAdmin.Configuration

/-! ### The invariant -/

/-- No value of a layer is empty, and no key beyond the declared ones has a default. -/
structure Filled (c : Configuration) : Prop where
  /-- The run-time values. -/
  runtime : ∀ e ∈ c.store.runtime.entries, e.2 ≠ ""
  /-- The values of the site file. -/
  site : ∀ e ∈ c.store.site.entries, e.2 ≠ ""
  /-- The keys. -/
  known : c.registry.WithoutDefaults

variable {c c' : Configuration} {k : PropertyKey} {n v raw : String}

theorem filled_empty : Filled .empty :=
  ⟨fun _ he => absurd he List.not_mem_nil, fun _ he => absurd he List.not_mem_nil,
    fun _ hk => absurd hk List.not_mem_nil⟩

theorem Filled.mergeEntry (h : c.Filled) (entry : String × String) :
    (c.mergeEntry entry).Filled := by
  unfold Configuration.mergeEntry
  dsimp only
  split
  · exact h
  · rename_i hne
    simp only [Bool.or_eq_true, String.isEmpty_iff, not_or] at hne
    exact ⟨h.runtime, Layer.forall_insert h.site hne.2, h.known.register _⟩

theorem merge_cons (c : Configuration) (entry : String × String)
    (entries : List (String × String)) :
    c.merge (entry :: entries) = (c.mergeEntry entry).merge entries := by
  rw [Configuration.merge, List.foldl_cons, ← Configuration.merge]

theorem Filled.merge (h : c.Filled) (entries : List (String × String)) :
    (c.merge entries).Filled := by
  induction entries generalizing c with
  | nil => exact h
  | cons entry entries ih =>
    rw [merge_cons]
    exact ih (h.mergeEntry entry)

/-- A value is set exactly if it is not empty. -/
theorem set_eq_ok_iff :
    c.set k v = .ok c' ↔ v ≠ "" ∧ c' = { c with store := c.store.put k v } := by
  by_cases hv : v = ""
  · subst hv
    simp [Configuration.set]
  · rw [Configuration.set, if_neg (by simpa using hv)]
    simp [hv, eq_comm]

theorem get_of_set (hset : c.set k v = .ok c') (hplain : '\x7b' ∉ v.toList) :
    c'.get k = .ok v := by
  obtain ⟨-, rfl⟩ := set_eq_ok_iff.mp hset
  have hraw : (c.store.put k v).get? k = some v := by rw [Store.get?_put, if_pos rfl]
  exact get_of_plain hraw hplain

theorem Filled.set (h : c.Filled) (hset : c.set k v = .ok c') : c'.Filled := by
  obtain ⟨hne, rfl⟩ := set_eq_ok_iff.mp hset
  exact ⟨Layer.forall_insert h.runtime hne, h.site, h.known⟩

theorem Filled.unset (h : c.Filled) (k : PropertyKey) : (c.unset k).Filled :=
  ⟨Layer.forall_erase h.runtime, Layer.forall_erase h.site, h.known⟩

/-- Every configuration that is reached is filled. -/
theorem Reached.filled (h : c.Reached) : c.Filled := by
  induction h with
  | empty => exact filled_empty
  | merge entries _ ih => exact ih.merge entries
  | set _ hset ih => exact ih.set hset
  | unset k _ ih => exact ih.unset k
  | note names _ ih => exact ⟨ih.runtime, ih.site, ih.known.noteAll names⟩
  | templateKey t service _ ih => exact ⟨ih.runtime, ih.site, ih.known.format t service⟩

/-! ### Reads -/

theorem Filled.values_ne (h : c.Filled) : ∀ raw ∈ c.values, raw ≠ "" := by
  intro raw hraw
  simp only [values, List.map_append, List.mem_append, List.mem_map, List.mem_filterMap] at hraw
  rcases hraw with (⟨e, he, rfl⟩ | ⟨e, he, rfl⟩) | ⟨k, hk | hk, hdefault⟩
  · exact h.runtime e he
  · exact h.site e he
  · rintro rfl
    exact PropertyKey.default?_ne_empty k hk hdefault
  · exact absurd ((h.known k hk).symm.trans hdefault) (by simp)

/-- A key reads as an empty value only if its own default is empty. -/
theorem Filled.get_ne_empty_of_default (h : c.Filled) (hk : k.default? ≠ some "")
    (hget : c.get k = .ok v) : v ≠ "" := by
  obtain ⟨raw, hraw, hexp⟩ := exists_expands_of_get hget
  have hvalues : ∀ n cs, c.define n = .raw cs → cs ≠ [] := by
    intro n cs hdef
    obtain ⟨k', raw', hkey, hget', rfl⟩ := define_eq_raw_iff.mp hdef
    simpa using h.values_ne raw' ((owns_of_key? hkey).mem_values hget')
  have hne : raw ≠ "" := by
    rintro rfl
    exact (mem_values_or_default hraw).elim (fun hmem => h.values_ne "" hmem rfl) hk
  simpa using hexp.ne_nil hvalues (by simpa using hne) v.toList rfl

/-- The defaults of the known keys are not empty. -/
theorem Filled.default?_ne_empty (h : c.Filled)
    (hk : k ∈ PropertyKey.declared ++ c.registry.known) : k.default? ≠ some "" := by
  intro hdefault
  refine h.values_ne "" (List.mem_append_right _ ?_) rfl
  exact List.mem_filterMap.mpr ⟨k, hk, hdefault⟩

theorem Filled.default?_ne_empty_of_key? (h : c.Filled) (hk : c.key? n = some k) :
    k.default? ≠ some "" := fun hdefault =>
  h.default?_ne_empty (Registry.mem_of_default hk hdefault) hdefault

/-- No key of a filled configuration resolves to an empty value. -/
theorem Filled.get_ne_empty (h : c.Filled) (hk : c.Owns k) (hget : c.get k = .ok v) : v ≠ "" := by
  refine h.get_ne_empty_of_default (fun hdefault => ?_) hget
  obtain ⟨k', hkey, hdefault'⟩ := Option.bind_eq_some_iff.mp (hk.symm.trans hdefault)
  exact h.default?_ne_empty_of_key? hkey hdefault'

end RaftAdmin.Configuration
