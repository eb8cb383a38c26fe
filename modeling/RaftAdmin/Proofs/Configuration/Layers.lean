import RaftAdmin.Config.Store
import Mathlib.Data.List.Sort
import Mathlib.Data.String.Basic

/-!
# What the layers hold

Laws of the layered store: what is read after a value was put or removed.

## What is proved

* `Store.get?_put` — a value that was put is read by every key of its name, and by no other key.
* `Store.get?_eq_some` — a raw value stands in one of the layers, or is the default of its key.
* `Store.mem_userNames_iff`, `Store.Distinct.pairwise_userNames` — the names with a value of their
  own are those that a layer supplies, listed in order and once each.
-/

namespace RaftAdmin

namespace Layer

variable {l : Layer} {m n v : String}

theorem lookup_cons_of_ne {entries : List (String × String)} (h : m ≠ n) :
    ((n, v) :: entries).lookup m = entries.lookup m := by
  rw [List.lookup_cons, beq_false_of_ne h]

theorem get?_erase (l : Layer) (m n : String) :
    (l.erase n).get? m = if m = n then none else l.get? m := by
  obtain ⟨entries⟩ := l
  simp only [erase, get?]
  induction entries with
  | nil => simp
  | cons e entries ih =>
    obtain ⟨n', v⟩ := e
    by_cases hn : n' = n
    · rw [List.filter_cons_of_neg (by simpa using hn), ih]
      by_cases hm : m = n
      · rw [if_pos hm, if_pos hm]
      · rw [if_neg hm, if_neg hm, lookup_cons_of_ne (hn ▸ hm)]
    · rw [List.filter_cons_of_pos (by simpa using hn)]
      by_cases hm : m = n'
      · subst hm
        rw [List.lookup_cons_self, List.lookup_cons_self, if_neg hn]
      · rw [lookup_cons_of_ne hm, lookup_cons_of_ne hm, ih]

theorem get?_insert (l : Layer) (m n v : String) :
    (l.insert n v).get? m = if m = n then some v else l.get? m := by
  by_cases hm : m = n
  · rw [if_pos hm, hm, insert, get?, List.lookup_cons_self]
  · have herase : (l.erase n).get? m = l.get? m := by rw [get?_erase, if_neg hm]
    rw [if_neg hm, ← herase, insert, get?, lookup_cons_of_ne hm, get?]

theorem mem_entries_of_get? (h : l.get? n = some v) :
    (n, v) ∈ l.entries := by
  obtain ⟨l₁, l₂, hsplit, -⟩ := List.lookup_eq_some_iff.mp h
  rw [hsplit]
  simp

theorem get?_eq_none_iff : l.get? n = none ↔ n ∉ l.names := by
  simp only [get?, names, List.lookup_eq_none_iff, List.mem_map, bne_iff_ne, not_exists, not_and]
  constructor
  · intro h e he hn
    exact h e he hn.symm
  · intro h e he hn
    exact h e he hn.symm

theorem mem_names_of_get? (h : l.get? n = some v) : n ∈ l.names := by
  by_contra hn
  rw [get?_eq_none_iff.mpr hn] at h
  cases h

theorem names_erase (l : Layer) (n : String) : (l.erase n).names = l.names.filter (· ≠ n) := by
  rw [names, names, List.filter_map]
  rfl

theorem nodup_names_erase (h : l.names.Nodup) (n : String) : (l.erase n).names.Nodup := by
  rw [names_erase]
  exact h.filter _

theorem nodup_names_insert (h : l.names.Nodup) (n v : String) : (l.insert n v).names.Nodup := by
  show (n :: (l.erase n).names).Nodup
  rw [List.nodup_cons]
  refine ⟨?_, nodup_names_erase h n⟩
  simp [names_erase]

theorem forall_insert {P : String × String → Prop}
    (h : ∀ e ∈ l.entries, P e) (hv : P (n, v)) : ∀ e ∈ (l.insert n v).entries, P e := by
  intro e he
  rcases List.mem_cons.mp he with rfl | he
  · exact hv
  · exact h e (List.mem_filter.mp he).1

theorem forall_erase {P : String × String → Prop}
    (h : ∀ e ∈ l.entries, P e) : ∀ e ∈ (l.erase n).entries, P e :=
  fun e he => h e (List.mem_filter.mp he).1

end Layer

namespace Store

/-- A value that was put is read by the keys of its name only. -/
theorem get?_put (s : Store) (j k : PropertyKey) (v : String) :
    (s.put j v).get? k = if k.name = j.name then some v else s.get? k := by
  simp only [put, get?, lookup, Layer.get?_insert]
  by_cases hname : k.name = j.name
  · simp [hname]
  · simp [hname]

/-- The raw value of a key depends on its name and default only. -/
theorem get?_congr (s : Store) {j k : PropertyKey} (hname : j.name = k.name)
    (hdefault : j.default? = k.default?) : s.get? j = s.get? k := by
  simp only [get?, lookup, hname, hdefault]

/-- A raw value stands in one of the layers, or is the default of its key. -/
theorem get?_eq_some {s : Store} {k : PropertyKey} {v : String} (h : s.get? k = some v) :
    (k.name, v) ∈ s.runtime.entries ∨ (k.name, v) ∈ s.site.entries ∨ k.default? = some v := by
  unfold get? lookup at h
  split at h
  · rename_i hv
    obtain rfl : _ = v := by simpa using h
    exact .inl (Layer.mem_entries_of_get? hv)
  · split at h
    · rename_i hv
      obtain rfl : _ = v := by simpa using h
      exact .inr (.inl (Layer.mem_entries_of_get? hv))
    · exact .inr (.inr (by simpa using h))

/-! ### Names -/

variable {s : Store} {n : String}

/-- No layer has two values of one name. -/
structure Distinct (s : Store) : Prop where
  /-- The run-time values. -/
  runtime : s.runtime.names.Nodup
  /-- The values of the site file. -/
  site : s.site.names.Nodup

theorem distinct_empty : Distinct .empty := ⟨List.nodup_nil, List.nodup_nil⟩

theorem Distinct.put (h : s.Distinct) (k : PropertyKey) (v : String) : (s.put k v).Distinct :=
  ⟨Layer.nodup_names_insert h.runtime k.name v, h.site⟩

theorem Distinct.putSite (h : s.Distinct) (k : PropertyKey) (v : String) :
    (s.putSite k v).Distinct :=
  ⟨h.runtime, Layer.nodup_names_insert h.site k.name v⟩

theorem Distinct.remove (h : s.Distinct) (k : PropertyKey) : (s.remove k).Distinct :=
  ⟨Layer.nodup_names_erase h.runtime k.name, Layer.nodup_names_erase h.site k.name⟩

theorem mem_userNames : n ∈ s.userNames ↔ n ∈ s.runtime.names ∨ n ∈ s.site.names := by
  simp only [userNames, List.mem_mergeSort, List.mem_append, List.mem_filter,
    Option.isNone_iff_eq_none, Layer.get?_eq_none_iff]
  by_cases hn : n ∈ s.runtime.names
  · simp [hn]
  · simp [hn]

/-- The names with a value of their own are those that a layer supplies. -/
theorem mem_userNames_iff {k : PropertyKey} :
    k.name ∈ s.userNames ↔ s.source? k = some .runtime ∨ s.source? k = some .siteFile := by
  rw [mem_userNames, source?, lookup]
  cases hruntime : s.runtime.get? k.name with
  | some v =>
    have hmem := Layer.mem_names_of_get? hruntime
    simp [hmem]
  | none =>
    rw [Layer.get?_eq_none_iff] at hruntime
    cases hsite : s.site.get? k.name with
    | some v =>
      have hmem := Layer.mem_names_of_get? hsite
      simp [hmem]
    | none =>
      rw [Layer.get?_eq_none_iff] at hsite
      simp [hruntime, hsite]

/-- They are listed in order, each of them once. -/
theorem Distinct.pairwise_userNames (h : s.Distinct) : s.userNames.Pairwise (· < ·) := by
  have hsorted : s.userNames.Pairwise (· ≤ ·) := List.pairwise_mergeSort' (· ≤ ·) _
  have hnodup : s.userNames.Nodup := by
    rw [userNames, (List.mergeSort_perm _ _).nodup_iff]
    refine h.runtime.append (h.site.filter _) fun n hn hn' => ?_
    have hnone := (List.mem_filter.mp hn').2
    rw [Option.isNone_iff_eq_none, Layer.get?_eq_none_iff] at hnone
    exact hnone hn
  exact (hsorted.and hnodup).imp fun ⟨hle, hne⟩ => lt_of_le_of_ne hle hne

end Store

end RaftAdmin
