import RaftAdmin.Proofs.Configuration.Keys
import RaftAdmin.Proofs.Text.Split

/-!
# What the registry remembers

A registry answers for more names than it knows: it makes the key of a family when a name of the
family is first looked up, and remembers it.

## The model

The view of a registry (`Registry.view`) has the key of every name, whether the registry knows the
key already or would make it. What is found, registered or asked for depends on the view alone, so
two registries of one view cannot be told apart but by listing what they know.

## What is proved

* `service?_keyName` — a name of a family gives back the service id that it was made for, unless
  this is empty.
* `finds_of_mem`, `fits_of_mem` — the key of a family for a service id is the one that its name
  finds, or, if the id is empty, its name finds none.
* `view_note`, `view_format_of_finds` — remembering what would be found anyway keeps the view.
* `register_fst`, `view_register`, `format_fst`, `view_format` — registering a name, and asking for
  the key of a family, by the view alone.
-/

namespace RaftAdmin

/-! ### Names of families -/

namespace KeyTemplate

variable {t : KeyTemplate} {service : String}

/-- A name of a family gives back its service id, unless this is empty. -/
theorem service?_keyName (t : KeyTemplate) (service : String) :
    t.service? (t.keyName service) = if service = "" then none else some service := by
  have hname : (t.keyName service).toList
      = t.front.toList ++ (service.toList ++ t.back.toList) := by
    simp [keyName]
  rw [service?, hname, Text.dropFront?_append]
  dsimp only
  rw [Text.dropBack?_append]
  by_cases hservice : service = ""
  · subst hservice
    rfl
  · have hne : service.toList ≠ [] := by simpa using hservice
    simp [hservice, hne]

theorem isMatch_keyName (t : KeyTemplate) (h : service ≠ "") : t.isMatch (t.keyName service) := by
  rw [isMatch, service?_keyName, if_neg h]
  rfl

/-- No name belongs to both families. -/
theorem not_isMatch_keyName (service : String) :
    servicePeers.isMatch (serviceGroupId.keyName service) = false := by
  have hname : (serviceGroupId.keyName service).toList
      = servicePeers.front.toList ++ (service.toList ++ serviceGroupId.back.toList) := by
    simp [keyName, servicePeers, serviceGroupId]
  rw [isMatch, service?, hname, Text.dropFront?_append]
  simp [Text.dropBack?, Text.dropFront?, servicePeers, serviceGroupId]

/-- A name of a family finds the key of this family, unless the service id is empty. -/
theorem templated?_keyName (ht : t ∈ all) (service : String) :
    Registry.templated? (t.keyName service)
      = if service = "" then none else some (t.instantiate (t.keyName service)) := by
  have hfamily : t = servicePeers ∨ t = serviceGroupId := by simpa [all] using ht
  by_cases hservice : service = ""
  · subst hservice
    rcases hfamily with rfl | rfl
    · decide
    · decide
  · rw [if_neg hservice, Registry.templated?, all]
    rcases hfamily with rfl | rfl
    · simp [isMatch_keyName servicePeers hservice]
    · simp [isMatch_keyName serviceGroupId hservice, not_isMatch_keyName]

/-- The name of the key for a service id finds this key, or none. -/
def Fits (t : KeyTemplate) (service : String) : Prop :=
  ∀ k, Registry.templated? (t.keyName service) = some k → k = t.instantiate (t.keyName service)

/-- The name of the key for a service id finds this key. -/
def Finds (t : KeyTemplate) (service : String) : Prop :=
  Registry.templated? (t.keyName service) = some (t.instantiate (t.keyName service))

theorem finds_of_mem (ht : t ∈ all) (h : service ≠ "") : t.Finds service := by
  rw [Finds, templated?_keyName ht, if_neg h]

theorem fits_of_mem (ht : t ∈ all) (service : String) : t.Fits service := by
  intro k hk
  rw [templated?_keyName ht] at hk
  split at hk
  · cases hk
  · exact (Option.some.inj hk).symm

theorem Finds.fits (h : t.Finds service) : t.Fits service := by
  intro k hk
  rw [Finds] at h
  rw [h] at hk
  exact (Option.some.inj hk).symm

end KeyTemplate

/-! ### The view of a registry -/

namespace Registry

variable {r : Registry} {k : PropertyKey} {m n : String} {t : KeyTemplate} {service : String}

/-- The key of a name that the registry knows, or else would make. -/
def view (r : Registry) (n : String) : Option PropertyKey := (r.known? n).or (templated? n)

theorem find?_eq (r : Registry) (n : String) : r.find? n = (declared? n).or (r.view n) := by
  unfold find? view
  cases declared? n with
  | some k => rfl
  | none => cases r.known? n <;> rfl

theorem known?_insert (r : Registry) (k : PropertyKey) (n : String) :
    (r.insert k).known? n = if k.name = n then some k else r.known? n := by
  by_cases hn : k.name = n
  · rw [if_pos hn, known?, insert, List.find?_cons_of_pos (by simpa using hn)]
  · rw [if_neg hn, known?, insert, List.find?_cons_of_neg (by simpa using hn), known?]

theorem view_insert (r : Registry) (k : PropertyKey) (n : String) :
    (r.insert k).view n = if k.name = n then some k else r.view n := by
  rw [view, known?_insert]
  by_cases hn : k.name = n
  · rw [if_pos hn, if_pos hn, Option.some_or]
  · rw [if_neg hn, if_neg hn, view]

theorem name_of_templated? (h : templated? n = some k) : k.name = n := by
  obtain ⟨t, -, rfl⟩ := Option.map_eq_some_iff.mp h
  rfl

/-- Remembering the key that a name finds anyway keeps the view. -/
theorem view_insert_of_templated? (hknown : r.known? m = none) (hk : templated? m = some k)
    (n : String) : (r.insert k).view n = r.view n := by
  rw [view_insert]
  by_cases hn : k.name = n
  · obtain rfl := (name_of_templated? hk).symm.trans hn
    rw [if_pos hn, view, hknown, hk, Option.none_or]
  · rw [if_neg hn]

theorem view_note (r : Registry) (m n : String) : (r.note m).view n = r.view n := by
  unfold note
  split
  · rename_i k _ hknown hk
    exact view_insert_of_templated? hknown hk n
  · rfl

theorem view_noteAll (r : Registry) (names : List String) (n : String) :
    (r.noteAll names).view n = r.view n := by
  induction names generalizing r with
  | nil => rfl
  | cons m names ih =>
    show ((r.note m).noteAll names).view n = r.view n
    rw [ih, view_note]

/-! ### Registering a name -/

/-- The key that is registered for a name, by the view alone. -/
theorem register_fst (r : Registry) (n : String) :
    (r.register n).1 = ((declared? n).or (r.view n)).getD (.custom n) := by
  rw [← find?_eq, register]
  cases r.find? n <;> rfl

/-- Only a name that finds nothing becomes a key of its own. -/
theorem view_register (r : Registry) (m n : String) :
    (r.register m).2.view n =
      if m = n ∧ (declared? m).or (r.view m) = none then some (.custom m) else r.view n := by
  rw [← find?_eq, register]
  cases hfind : r.find? m with
  | some k => simp [view_note]
  | none => simp [view_insert, PropertyKey.custom]

/-! ### The key of a family -/

/-- The key of a family for a service id, by the view alone. -/
theorem format_fst (h : t.Fits service) (r : Registry) :
    (r.format t service).1
      = (r.view (t.keyName service)).getD (t.instantiate (t.keyName service)) := by
  unfold format view
  dsimp only
  cases r.known? (t.keyName service) with
  | some k => rfl
  | none =>
    cases htemplated : templated? (t.keyName service) with
    | none => rfl
    | some k => exact (h k htemplated).symm

/-- Asking for the key of a family makes its name find this key. -/
theorem view_format (t : KeyTemplate) (service : String) (r : Registry) (n : String) :
    (r.format t service).2.view n =
      if t.keyName service = n then some (r.format t service).1 else r.view n := by
  unfold format
  dsimp only
  cases hknown : r.known? (t.keyName service) with
  | some k =>
    by_cases hn : t.keyName service = n
    · subst hn
      simp [view, hknown]
    · rw [if_neg hn]
  | none => exact view_insert r (t.instantiate (t.keyName service)) n

/-- If its name finds this key anyway, asking for it keeps the view. -/
theorem view_format_of_finds (h : t.Finds service) (r : Registry) (n : String) :
    (r.format t service).2.view n = r.view n := by
  unfold format
  dsimp only
  cases hknown : r.known? (t.keyName service) with
  | some k => rfl
  | none => exact view_insert_of_templated? hknown h n

/-- A name that nothing else finds is found once the key of a family of this name was asked for. -/
theorem find?_format_of_unknown (h : r.find? (t.keyName service) = none) :
    (r.format t service).2.find? (t.keyName service)
      = some (t.instantiate (t.keyName service)) := by
  rw [find?_eq, Option.or_eq_none_iff, view, Option.or_eq_none_iff] at h
  obtain ⟨hdeclared, hknown, htemplated⟩ := h
  have hfits : t.Fits service := by
    intro k hk
    rw [htemplated] at hk
    cases hk
  rw [find?_eq, hdeclared, Option.none_or, view_format, if_pos rfl, format_fst hfits, view,
    hknown, htemplated]
  rfl

end Registry

end RaftAdmin
