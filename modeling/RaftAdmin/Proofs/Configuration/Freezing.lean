import RaftAdmin.Proofs.Configuration.Substitution
import RaftAdmin.Proofs.Configuration.Values
import RaftAdmin.Proofs.Reference.Freezing

/-!
# Setting a key to its own value

A key that is set to the value it resolves to loses its references, and no read can tell.

## The model

A key of the configuration is any key with the default that the configuration knows for its name
(`Owns`). The registry need not know the key: no reference can ask for its name then.

## What is proved

* `get_set_get` — after a key is set to its value, every key is read as before, values and errors
  alike.
-/

namespace RaftAdmin.Configuration

open Reference

variable {c : Configuration} {j k k' : PropertyKey} {n raw w : String}

/-- The braces of all values that can be read belong to references. -/
def Nested (c : Configuration) : Prop := ∀ k, c.Owns k → c.AllNested k

theorem nested_of_values (h : ∀ raw ∈ c.values, WellNested raw.toList) : c.Nested := by
  intro k hk raw hread
  rcases hread with hget | ⟨n, k', hkey, hget⟩
  · exact h raw (hk.mem_values hget)
  · exact h raw ((owns_of_key? hkey).mem_values hget)

/-! ### Keys of one name -/

/-- The keys of one name are read alike. -/
theorem Owns.get?_eq (hk : c.Owns k) (hk' : c.Owns k') (hname : k.name = k'.name) :
    c.store.get? k = c.store.get? k' := by
  refine Store.get?_congr _ hname ?_
  rw [Owns] at hk hk'
  rw [hk, hk', hname]

theorem Owns.get_eq (hk : c.Owns k) (hk' : c.Owns k') (hname : k.name = k'.name) :
    c.get k = c.get k' := by
  simp only [get, expansion, hk.get?_eq hk' hname, hname]

/-- A key of the configuration has the raw value that its name stands for, if this is one. -/
theorem Owns.get?_of_define (hk : c.Owns k) {cs : List Char} (hdef : c.define k.name = .raw cs) :
    ∃ raw, c.store.get? k = some raw ∧ raw.toList = cs := by
  obtain ⟨k', raw, hkey, hget, hcs⟩ := define_eq_raw_iff.mp hdef
  refine ⟨raw, ?_, hcs⟩
  rw [← hget]
  exact hk.get?_eq (owns_of_key? hkey) (Registry.name_of_find? hkey).symm

theorem Owns.define_eq (hk : c.Owns k) (hkey : c.key? k.name = some k')
    (hraw : c.store.get? k = some raw) : c.define k.name = .raw raw.toList := by
  refine define_eq_raw_iff.mpr ⟨k', raw, hkey, ?_, rfl⟩
  rw [← hraw]
  exact (owns_of_key? hkey).get?_eq hk (Registry.name_of_find? hkey)

/-- A key needs what its raw value requires. -/
theorem Owns.needs (hk : c.Owns k) (hraw : c.store.get? k = some raw)
    (h : Requires c.dictionary (.ofText raw.toList) n) : Needs c.dictionary k.name n := by
  intro chain v hv
  obtain ⟨-, cs, hdef, -⟩ := resolve_eq_ok.mp hv
  obtain ⟨raw', hraw', rfl⟩ := hk.get?_of_define hdef
  obtain rfl := Option.some.inj (hraw.symm.trans hraw')
  exact h.needs hdef chain v hv

/-! ### After the key is set -/

/-- The configuration with a run-time value of the key. -/
def freeze (c : Configuration) (j : PropertyKey) (w : String) : Configuration :=
  { c with store := c.store.put j w }

theorem set_eq_freeze (hw : w ≠ "") : c.set j w = .ok (c.freeze j w) :=
  set_eq_ok_iff.mpr ⟨hw, rfl⟩

theorem get?_freeze (c : Configuration) (j k : PropertyKey) (w : String) :
    (c.freeze j w).store.get? k = if k.name = j.name then some w else c.store.get? k :=
  Store.get?_put c.store j k w

/-- Names other than that of the key stand for what they did. -/
theorem define_freeze_of_ne (hn : n ≠ j.name) : (c.freeze j w).define n = c.define n := by
  simp only [define, freeze]
  cases hkey : c.registry.find? n with
  | none => rfl
  | some k =>
    have hname : k.name ≠ j.name := by rwa [Registry.name_of_find? hkey]
    simp only [Store.get?_put, if_neg hname]

/-- If the key is known, its name stands for the value. -/
theorem define_freeze_of_known (hkey : (c.key? j.name).isSome = true) (n : String) :
    (c.freeze j w).define n = (c.dictionary.freeze j.name w.toList).define n := by
  by_cases hn : n = j.name
  · obtain ⟨k, hk⟩ := Option.isSome_iff_exists.mp hkey
    have hget : (c.freeze j w).store.get? k = some w := by
      rw [get?_freeze, if_pos (Registry.name_of_find? hk)]
    rw [hn, Dictionary.freeze_define_self]
    exact define_eq_raw_iff.mpr ⟨k, w, hk, hget, rfl⟩
  · rw [define_freeze_of_ne hn, Dictionary.freeze_define_of_ne hn, dictionary_define]

/-- If the key is unknown, its name stays unknown. -/
theorem define_freeze_of_unknown (hkey : c.key? j.name = none) (n : String) :
    (c.freeze j w).define n = c.define n := by
  by_cases hn : n = j.name
  · rw [key?] at hkey
    simp only [define, freeze, hn, hkey]
  · exact define_freeze_of_ne hn

theorem Nested.freeze (h : c.Nested) (hw : Plain w.toList) : (c.freeze j w).Nested := by
  have hvalue : ∀ k raw, c.Owns k → (c.freeze j w).store.get? k = some raw →
      WellNested raw.toList := by
    intro k raw hk hget
    rw [get?_freeze] at hget
    split at hget
    · obtain rfl := Option.some.inj hget
      exact hw.wellNested
    · exact h k hk raw (.inl hget)
  intro k hk raw hread
  rcases hread with hget | ⟨n, k', hkey, hget⟩
  · exact hvalue k raw hk hget
  · exact hvalue k' raw (owns_of_key? hkey) hget

/-! ### Reads before and after -/

theorem evaluate_eq_ok :
    c.evaluate k = .ok w ↔ ∃ raw, c.store.get? k = some raw ∧
      eval c.dictionary [k.name] (.ofText raw.toList) = .ok w.toList := by
  cases hraw : c.store.get? k with
  | none => simp [evaluate, hraw]
  | some raw =>
    cases heval : eval c.dictionary [k.name] (.ofText raw.toList) with
    | error e => simp [evaluate, hraw, heval, Except.map]
    | ok v =>
      simp only [evaluate, hraw, heval, Except.map, Except.ok.injEq, Option.some.injEq,
        exists_eq_left', ← String.ofList_inj, String.ofList_toList]

/-- Keys of other names are evaluated as before. -/
theorem evaluate_freeze_of_ne (hj : c.Owns j) (hk : c.Owns k) (hname : k.name ≠ j.name)
    (hw : c.evaluate j = .ok w) : (c.freeze j w).evaluate k = c.evaluate k := by
  have hget : (c.freeze j w).store.get? k = c.store.get? k := by rw [get?_freeze, if_neg hname]
  cases hraw : c.store.get? k with
  | none => simp only [evaluate, hget, hraw]
  | some raw =>
    suffices heval : eval (c.freeze j w).dictionary [k.name] (.ofText raw.toList) =
        eval c.dictionary [k.name] (.ofText raw.toList) by
      simp only [evaluate, hget, hraw, heval]
    cases hkey : c.key? j.name with
    | none => exact eval_congr [k.name] (fun n _ => define_freeze_of_unknown hkey n) _
    | some j' =>
      obtain ⟨rawj, hrawj, hevalj⟩ := evaluate_eq_ok.mp hw
      have hresolve : resolve c.dictionary [] j.name = .ok w.toList :=
        resolve_eq_ok.mpr ⟨List.not_mem_nil, _, hj.define_eq hkey hrawj, hevalj⟩
      have hfrozen : eval (c.freeze j w).dictionary [k.name] (.ofText raw.toList) =
          eval (c.dictionary.freeze j.name w.toList) [k.name] (.ofText raw.toList) :=
        eval_congr [k.name] (fun n _ => define_freeze_of_known (by simp [hkey]) n) _
      rw [hfrozen]
      refine eval_freeze hresolve [k.name] _ fun m hm x hx => ?_
      obtain rfl := List.mem_singleton.mp hx
      exact hk.needs hraw hm

/-- Keys of the name have the value that was set. -/
theorem evaluate_freeze_of_eq (hname : k.name = j.name) (hw : Plain w.toList) :
    (c.freeze j w).evaluate k = .ok w := by
  have hget : (c.freeze j w).store.get? k = some w := by rw [get?_freeze, if_pos hname]
  exact evaluate_eq_ok.mpr ⟨w, hget, eval_ofText_of_plain hw⟩

/-- **Freezing a resolved value is invisible**: if all values are well nested, a key can be set to
the value that it resolves to, and then every key of the configuration is read as before. -/
theorem get_set_get (hreached : c.Reached) (hnested : c.Nested) (hj : c.Owns j)
    (hget : c.get j = .ok w) :
    ∃ c', c.set j w = .ok c' ∧ ∀ k, c.Owns k → c'.Ends k ∧ c'.get k = c.get k := by
  have hvalue : c.evaluate j = .ok w := (hnested j hj).get_eq.symm.trans hget
  have hplain : Plain w.toList := by
    obtain ⟨raw, -, heval⟩ := evaluate_eq_ok.mp hvalue
    exact plain_of_eval _ heval
  have hnested' : (c.freeze j w).Nested := hnested.freeze hplain
  refine ⟨c.freeze j w, set_eq_freeze (hreached.filled.get_ne_empty hj hget), fun k hk => ?_⟩
  refine ⟨(hnested' k hk).ends, ?_⟩
  rw [(hnested' k hk).get_eq]
  by_cases hname : k.name = j.name
  · rw [evaluate_freeze_of_eq hname hplain, hk.get_eq hj hname, hget]
  · rw [evaluate_freeze_of_ne hj hk hname hvalue, (hnested k hk).get_eq]

/-- A key with a reference, beside others that refer to it and a cycle that refers to it. -/
theorem get_set_get_reference :
    let c := Configuration.empty.merge
      [("x", "$\x7by\x7d/a"), ("y", "1"), ("t", "$\x7bx\x7d$\x7b$\x7bx\x7d\x7d"),
        ("u", "$\x7bx\x7d$\x7bv\x7d"), ("v", "$\x7bu\x7d")]
    c.Reached ∧ c.Nested ∧ c.Owns (.custom "x") ∧ c.get (.custom "x") = .ok "1/a" ∧
      ∃ c', c.set (.custom "x") "1/a" = .ok c' ∧
        ∀ k, c.Owns k → c'.Ends k ∧ c'.get k = c.get k := by
  intro c
  have hreached : c.Reached := .merge _ .empty
  have hnested : c.Nested := nested_of_values (by decide)
  have howns : c.Owns (.custom "x") := by decide
  have hget : c.get (.custom "x") = .ok "1/a" := by
    have hy : Asks c.define ["x"] "$\x7by\x7d/a".toList [] ['y'] ['/', 'a'] ['1'] :=
      ⟨by decide, by decide, by decide⟩
    have hexp : Expands c.define ["x"] "$\x7by\x7d/a".toList (.ok ['1', '/', 'a']) :=
      .replaced hy (.done (by decide)) (.done (by decide))
    have hraw : c.store.get? (.custom "x") = some "$\x7by\x7d/a" := by decide
    exact get_of_expands hraw hexp
  exact ⟨hreached, hnested, howns, hget, get_set_get hreached hnested howns hget⟩

end RaftAdmin.Configuration
