import RaftAdmin.Proofs.Configuration.Stability

/-!
# Which names belong to a family

A name belongs to a family if it is the name of one of its keys, for some service id. This can be
told from the ends of the name: it starts with the front and ends with the back of the family, and
these do not overlap, since the name has more bytes than both together.

## What is proved

* `service?_eq_some_iff` — a name gives back the service id that it was made for, and no other.
* `Framed.exists_keyName` — two ends that do not overlap have a service id between them.
* **`matching_inverts_naming`** — the names that belong to a family are those of its keys, they are
  told by their ends and their length, and they are neither declared nor in both families.
-/

namespace RaftAdmin.KeyTemplate

variable {t : KeyTemplate} {name service : String}

/-- A name gives back a service id exactly if it was made for this id, which is not empty. -/
theorem service?_eq_some_iff :
    t.service? name = some service ↔ service ≠ "" ∧ t.keyName service = name := by
  constructor
  · intro h
    have hname : t.keyName service = name := by
      unfold service? at h
      split at h
      · cases h
      next rest hrest =>
      split at h
      · cases h
      next inner hinner =>
      obtain ⟨-, hservice⟩ := Option.ite_none_left_eq_some.mp h
      rw [Text.dropFront?_eq_some_iff, Text.dropBack?_eq_some_iff.mp hinner] at hrest
      rw [← String.toList_inj, hrest, ← Option.some.inj hservice]
      simp [keyName]
    refine ⟨?_, hname⟩
    rintro rfl
    rw [← hname, service?_keyName, if_pos rfl] at h
    cases h
  · rintro ⟨hservice, rfl⟩
    rw [service?_keyName, if_neg hservice]

theorem isMatch_iff_exists :
    t.isMatch name ↔ ∃ service, service ≠ "" ∧ t.keyName service = name := by
  rw [isMatch, Option.isSome_iff_exists]
  exact exists_congr fun _ => service?_eq_some_iff

/-! ### The ends of a name -/

/-- The name starts with the front of a family, ends with its back, and is longer than both. -/
structure Framed (t : KeyTemplate) (name : String) : Prop where
  /-- The front. -/
  front : t.front.toList <+: name.toList
  /-- The back. -/
  back : t.back.toList <:+ name.toList
  /-- The lengths in bytes. -/
  longer : t.front.utf8ByteSize + t.back.utf8ByteSize < name.utf8ByteSize

theorem utf8ByteSize_keyName (t : KeyTemplate) (service : String) :
    (t.keyName service).utf8ByteSize
      = t.front.utf8ByteSize + service.utf8ByteSize + t.back.utf8ByteSize := by
  rw [keyName, String.utf8ByteSize_append, String.utf8ByteSize_append]

theorem framed_keyName (t : KeyTemplate) (h : service ≠ "") : t.Framed (t.keyName service) where
  front := ⟨service.toList ++ t.back.toList, by simp [keyName]⟩
  back := ⟨t.front.toList ++ service.toList, by simp [keyName]⟩
  longer := by
    have hpos : service.utf8ByteSize ≠ 0 := fun h0 => h (String.utf8ByteSize_eq_zero_iff.mp h0)
    rw [utf8ByteSize_keyName]
    omega

/-- Two ends that do not overlap have a service id between them. -/
theorem Framed.exists_keyName (h : t.Framed name) :
    ∃ service, service ≠ "" ∧ t.keyName service = name := by
  obtain ⟨after, hafter⟩ := h.front
  obtain ⟨before, hbefore⟩ := h.back
  rcases List.append_eq_append_iff.mp (hafter.trans hbefore.symm) with
    ⟨service, rfl, rfl⟩ | ⟨overlap, hfront, hback⟩
  · have hname : t.keyName (String.ofList service) = name := by
      rw [← String.toList_inj, ← hafter]
      simp [keyName]
    refine ⟨String.ofList service, fun hempty => ?_, hname⟩
    have hlonger := h.longer
    rw [← hname, hempty, utf8ByteSize_keyName] at hlonger
    simp at hlonger
  · -- the back would reach into the front, and the name be no longer than both
    have hback' : t.back = String.ofList overlap ++ String.ofList after := by
      rw [← String.toList_inj, hback]
      simp
    have hname : name = t.front ++ String.ofList after := by
      rw [← String.toList_inj, ← hafter]
      simp
    have hlonger := h.longer
    rw [hname, hback', String.utf8ByteSize_append, String.utf8ByteSize_append] at hlonger
    omega

/-- **Matching inverts naming.** The names that belong to a family, whatever its front and back, are
those of its keys for nonempty service ids, and just those that start with the front, end with the
back and are longer than both. No name belongs to the peers and to the group ids of services, and no
key of these families has the name of a declared key. -/
theorem matching_inverts_naming :
    (∀ (t : KeyTemplate) (name : String),
      (t.isMatch name ↔ ∃ service, service ≠ "" ∧ name = t.keyName service) ∧
      (t.isMatch name ↔ t.Framed name)) ∧
    (∀ name, ¬ (servicePeers.isMatch name ∧ serviceGroupId.isMatch name)) ∧
    ∀ t ∈ all, ∀ k ∈ PropertyKey.declared, ∀ service, k.name ≠ t.keyName service := by
  refine ⟨fun t name => ⟨?_, ?_⟩, ?_, ?_⟩
  · rw [isMatch_iff_exists]
    simp only [eq_comm]
  · refine isMatch_iff_exists.trans ⟨?_, Framed.exists_keyName⟩
    rintro ⟨service, hservice, rfl⟩
    exact framed_keyName t hservice
  · rintro name ⟨hpeers, hgroup⟩
    obtain ⟨service, -, rfl⟩ := isMatch_iff_exists.mp hgroup
    rw [not_isMatch_keyName] at hpeers
    cases hpeers
  · intro t ht k hk service hname
    have hnone := List.find?_eq_none.mp (Registry.declared?_keyName ht service) k hk
    exact hnone (decide_eq_true hname)

/-- Front and back overlap in a name that has just both, and a service id may hold either. -/
example :
    let t : KeyTemplate := ⟨"a.b", "b.a", ""⟩
    (t.isMatch "a.b.a", t.isMatch "a.bb.a", t.isMatch "a.bé.ab.a") = (false, false, true) := by
  decide

end RaftAdmin.KeyTemplate
