import RaftAdmin.Config.Basic
import RaftAdmin.Proofs.Configuration.Keys
import RaftAdmin.Proofs.Configuration.Layers
import RaftAdmin.Proofs.Reference.Termination

/-!
# Reading a key

What a read of the configuration can come to see, and what it returns.

## The model

Whatever was set, merged and removed, only finitely many names have a value: those of the two
layers, and those of keys with a default. They are the dictionary of the configuration.

A key of the configuration is any key with the default that the configuration knows for its name
(`Owns`), be it known to the registry or not.

## What is proved

* `Readable.mem_values` — what a read can come to see are the values of the configuration.
* `ends_iff_exists_expands`, `get_of_expands` — a read ends exactly if the expansion of the raw
  value does, and returns its outcome.
* `get_cases`, `error_of_get` — what a read can come to, and how it can fail.
* `key?_of_invalidKey` — a read fails with an invalid key only for a name that finds none.
-/

namespace RaftAdmin.Configuration

/-- What merging site files, setting and removing values, and looking keys up make of the
configuration in which every key has its default. -/
inductive Reached : Configuration → Prop where
  /-- Every key has its default. -/
  | empty : Reached .empty
  /-- A site file was merged. -/
  | merge {c : Configuration} (entries : List (String × String)) :
      Reached c → Reached (c.merge entries)
  /-- A value was set. -/
  | set {c c' : Configuration} {k : PropertyKey} {v : String} :
      Reached c → c.set k v = .ok c' → Reached c'
  /-- The values of a key were removed. -/
  | unset {c : Configuration} (k : PropertyKey) : Reached c → Reached (c.unset k)
  /-- Names were looked up, by themselves or to read a key. -/
  | note {c : Configuration} (names : List String) : Reached c → Reached (c.note names)
  /-- The key of a family was asked for. -/
  | templateKey {c : Configuration} (t : KeyTemplate) (service : String) :
      Reached c → Reached (c.afterTemplateKey t service)

variable {c : Configuration} {k : PropertyKey} {n raw : String}

/-- The key has the default that the configuration knows for its name: that of the key of this name,
or none if no key has it. -/
def Owns (c : Configuration) (k : PropertyKey) : Prop :=
  k.default? = (c.key? k.name).bind PropertyKey.default?

instance (c : Configuration) (k : PropertyKey) : Decidable (c.Owns k) :=
  inferInstanceAs (Decidable (_ = _))

theorem owns_of_key? (h : c.key? n = some k) : c.Owns k := by
  obtain rfl := Registry.name_of_find? h
  rw [Owns, h, Option.bind_some]

/-- A raw value that reading a key may come to see: its own, or that of a name which a reference
can ask for. -/
def Readable (c : Configuration) (k : PropertyKey) (raw : String) : Prop :=
  c.store.get? k = some raw ∨ ∃ n k', c.key? n = some k' ∧ c.store.get? k' = some raw

theorem define_eq_raw_iff {cs : List Char} :
    c.define n = .raw cs ↔ ∃ k raw, c.key? n = some k ∧ c.store.get? k = some raw ∧
      raw.toList = cs := by
  unfold define key?
  cases c.registry.find? n with
  | none => simp
  | some k => cases hget : c.store.get? k <;> simp [hget]

theorem define_eq_unknown_iff : c.define n = .unknown ↔ c.key? n = none := by
  unfold define key?
  cases c.registry.find? n with
  | none => simp
  | some k => cases hget : c.store.get? k <;> simp [hget]

theorem readable_of_define {cs : List Char} (h : c.define n = .raw cs) :
    ∃ raw, c.Readable k raw ∧ raw.toList = cs := by
  obtain ⟨k', raw, hkey, hget, rfl⟩ := define_eq_raw_iff.mp h
  exact ⟨raw, .inr ⟨n, k', hkey, hget⟩, rfl⟩

/-- The raw values of the layers, and the defaults of the known keys. -/
def values (c : Configuration) : List String :=
  (c.store.runtime.entries ++ c.store.site.entries).map Prod.snd ++
    (PropertyKey.declared ++ c.registry.known).filterMap PropertyKey.default?

theorem mem_values_or_default (h : c.store.get? k = some raw) :
    raw ∈ c.values ∨ k.default? = some raw := by
  simp only [values, List.map_append, List.mem_append, List.mem_map]
  rcases Store.get?_eq_some h with hv | hv | hv
  · exact .inl (.inl (.inl ⟨_, hv, rfl⟩))
  · exact .inl (.inl (.inr ⟨_, hv, rfl⟩))
  · exact .inr hv

/-- A key of the configuration has a value of the configuration. -/
theorem Owns.mem_values (hk : c.Owns k) (hget : c.store.get? k = some raw) : raw ∈ c.values := by
  rcases mem_values_or_default hget with hraw | hdefault
  · exact hraw
  · obtain ⟨k', hkey, hdefault'⟩ := Option.bind_eq_some_iff.mp (hk.symm.trans hdefault)
    exact List.mem_append_right _
      (List.mem_filterMap.mpr ⟨k', Registry.mem_of_default hkey hdefault', hdefault'⟩)

/-- All that reading a key could come to see is a value of the configuration, or its default. -/
theorem Readable.mem_values (h : c.Readable k raw) : raw ∈ c.values ∨ k.default? = some raw := by
  rcases h with hget | ⟨n, k', hkey, hget⟩
  · exact mem_values_or_default hget
  · exact .inl ((owns_of_key? hkey).mem_values hget)

theorem Readable.mem_values_of_custom (h : c.Readable (.custom n) raw) : raw ∈ c.values :=
  h.mem_values.resolve_right (by simp [PropertyKey.custom])

/-- What names stand for; only those of the layers and of keys with a default have a value. -/
def dictionary (c : Configuration) : Reference.Dictionary where
  define := c.define
  names := c.store.runtime.names ++ c.store.site.names ++
    (PropertyKey.declared ++ c.registry.known).map PropertyKey.name
  mem_names := by
    intro n cs h
    obtain ⟨k, raw, hkey, hget, -⟩ := define_eq_raw_iff.mp h
    obtain rfl := Registry.name_of_find? hkey
    simp only [List.mem_append, List.mem_map, Layer.names]
    rcases Store.get?_eq_some hget with hv | hv | hv
    · exact .inl (.inl ⟨_, hv, rfl⟩)
    · exact .inl (.inr ⟨_, hv, rfl⟩)
    · exact .inr ⟨k, List.mem_append.mp (Registry.mem_of_default hkey hv), rfl⟩

@[simp] theorem dictionary_define : c.dictionary.define = c.define := rfl

/-! ### Reads that end -/

open Reference

/-- Reading the key comes to an end, with a value or an error. -/
def Ends (c : Configuration) (k : PropertyKey) : Prop := ∃ e, c.expansion k = some e

/-- A read returns what the expansion of the raw value ends with. -/
theorem expansion_of_expands (hraw : c.store.get? k = some raw)
    {r : Except ConfigError (List Char)} (h : Expands c.define [k.name] raw.toList r) :
    ∃ e, c.expansion k = some e ∧ e.outcome = r := by
  simp only [expansion, hraw]
  exact h.exists_expand []

theorem get_of_expands (hraw : c.store.get? k = some raw)
    {r : Except ConfigError (List Char)} (h : Expands c.define [k.name] raw.toList r) :
    c.get k = r.map String.ofList := by
  obtain ⟨e, he, rfl⟩ := expansion_of_expands hraw h
  rw [get, he]

/-- A value without an opening brace is read as it is. -/
theorem get_of_plain (hraw : c.store.get? k = some raw) (hplain : '\x7b' ∉ raw.toList) :
    c.get k = .ok raw := by
  rw [get_of_expands hraw (.done (next?_eq_none_of_open hplain)), Except.map,
    String.ofList_toList]

theorem ends_iff_exists_expands (hraw : c.store.get? k = some raw) :
    c.Ends k ↔ ∃ r, Expands c.define [k.name] raw.toList r := by
  simp only [Ends, expansion, hraw]
  constructor
  · rintro ⟨e, he⟩
    exact ⟨_, expands_of_expand he⟩
  · rintro ⟨r, h⟩
    obtain ⟨e, he, -⟩ := h.exists_expand []
    exact ⟨e, he⟩

theorem ends_of_unset (hraw : c.store.get? k = none) : c.Ends k := by
  simp [Ends, expansion, hraw]

/-- A read that never ends is what `endless` stands for. -/
theorem get_eq_endless_iff : c.get k = .error (.endless k.name) ↔ ¬ c.Ends k := by
  cases hraw : c.store.get? k with
  | none => simp [get, Ends, expansion, hraw, Except.map]
  | some raw =>
    constructor
    · rintro h hends
      obtain ⟨r, hr⟩ := (ends_iff_exists_expands hraw).mp hends
      rw [get_of_expands hraw hr] at h
      cases r with
      | ok v => exact absurd h (by simp [Except.map])
      | error e =>
        obtain rfl : e = .endless k.name := Except.error.inj h
        exact hr.aboutReference rfl
    · intro hends
      have hnone : c.expansion k = none := by
        by_contra hne
        exact hends (Option.ne_none_iff_exists'.mp hne)
      rw [get, hnone]

/-- What a read comes to: there is no raw value, or its expansion ends, or it does not. -/
theorem get_cases (c : Configuration) (k : PropertyKey) :
    c.get k = .error (.undefinedKey k.name) ∨
      (∃ raw r, c.store.get? k = some raw ∧ Expands c.define [k.name] raw.toList r ∧
        c.get k = r.map String.ofList) ∨
      c.get k = .error (.endless k.name) := by
  by_cases hends : c.Ends k
  · cases hraw : c.store.get? k with
    | none =>
      refine .inl ?_
      rw [get, expansion, hraw]
      rfl
    | some raw =>
      obtain ⟨r, hr⟩ := (ends_iff_exists_expands hraw).mp hends
      exact .inr (.inl ⟨raw, r, rfl, hr, get_of_expands hraw hr⟩)
  · exact .inr (.inr (get_eq_endless_iff.mpr hends))

/-- A read fails with an error about a reference, or because it does not come to an end. -/
theorem error_of_get {e : ConfigError} (h : c.get k = .error e) :
    AboutReference e ∨ e = .endless k.name := by
  rcases get_cases c k with hget | ⟨raw, r, -, hr, hget⟩ | hget <;> rw [hget] at h
  · obtain rfl := Except.error.inj h
    exact .inl trivial
  · cases r with
    | ok cs => cases h
    | error e' =>
      obtain rfl : e' = e := Except.error.inj h
      exact .inl (hr.aboutReference rfl)
  · exact .inr (Except.error.inj h).symm

/-- A read fails with an invalid key only for a name that finds none. -/
theorem key?_of_invalidKey (h : c.get k = .error (.invalidKey n)) : c.key? n = none := by
  rcases get_cases c k with hget | ⟨raw, r, -, hr, hget⟩ | hget <;> rw [hget] at h
  · cases h
  · cases r with
    | ok cs => cases h
    | error e =>
      obtain rfl : e = .invalidKey n := Except.error.inj h
      exact define_eq_unknown_iff.mp (hr.define_of_invalidKey rfl)
  · cases h

/-- A value that is read comes of the raw value. -/
theorem exists_expands_of_get {v : String} (h : c.get k = .ok v) :
    ∃ raw, c.store.get? k = some raw ∧ Expands c.define [k.name] raw.toList (.ok v.toList) := by
  rcases get_cases c k with hget | ⟨raw, r, hraw, hr, hget⟩ | hget <;> rw [hget] at h
  · cases h
  · cases r with
    | error e => cases h
    | ok cs =>
      obtain rfl : String.ofList cs = v := Except.ok.inj h
      exact ⟨raw, hraw, by simpa using hr⟩
  · cases h

end RaftAdmin.Configuration
