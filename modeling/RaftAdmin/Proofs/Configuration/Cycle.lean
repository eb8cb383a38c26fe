import RaftAdmin.Proofs.Configuration.Substitution
import RaftAdmin.Proofs.Reference.Cycle

/-!
# Cycles between keys

The references of the raw values make a graph of names. If no reference has a reference in its name,
the graph decides which keys can be read.

## The model

A read starts at a key, which need not be the one that the registry knows by this name: keys with a
default of their own can be made by anyone. So in the graph of a read the name of the key stands for
the key itself. A key of the configuration is read in the graph of the configuration
(`defineFor_of_key?`).

## What is proved

* `cycles_found` — a key can be read exactly if all names that can be reached from it have a value,
  are known and lie on no cycle; a circular dependency is reported with a path that closes.
-/

namespace RaftAdmin.Configuration

open Reference Relation

/-! ### The graph of a read -/

/-- What a name stands for while the key is read. -/
def defineFor (c : Configuration) (k : PropertyKey) (n : String) : Definition :=
  if n = k.name then
    match c.store.get? k with
    | none => .unset
    | some raw => .raw raw.toList
  else c.define n

/-- The raw value of `m` refers to `n`. -/
def Refers (c : Configuration) (k : PropertyKey) (m n : String) : Prop :=
  ∃ raw, c.defineFor k m = .raw raw ∧ Mentions raw n

/-- No value that reading the key may come to see has braces other than those of references without
references in their names. -/
def AllFlat (c : Configuration) (k : PropertyKey) : Prop :=
  ∀ raw, c.Readable k raw → Flat raw.toList

/-- All that can be reached from the key has a value, and no cycle can be reached. -/
structure Grounded (c : Configuration) (k : PropertyKey) : Prop where
  /-- Every name that can be reached has a raw value. -/
  valued : ∀ n, ReflTransGen (c.Refers k) k.name n → ∃ raw, c.defineFor k n = .raw raw
  /-- Every name that is referred to is known to the registry. -/
  known : ∀ n, TransGen (c.Refers k) k.name n → (c.key? n).isSome = true
  /-- No name that can be reached lies on a cycle. -/
  acyclic : ∀ n, ReflTransGen (c.Refers k) k.name n → ¬ TransGen (c.Refers k) n n

/-- The chain is a path from the key without repeats, and its last name refers back to one of its
names, which is `key`. -/
structure ClosedPath (c : Configuration) (k : PropertyKey) (key : String) (chain : List String) :
    Prop where
  /-- The chain starts with the key. -/
  head : chain.head? = some k.name
  /-- No name is on the chain twice. -/
  nodup : chain.Nodup
  /-- Each name refers to the next one, and the last name to `key`. -/
  path : (chain ++ [key]).IsChain (c.Refers k)
  /-- The name that is met again is on the chain. -/
  closed : key ∈ chain

variable {c : Configuration} {k : PropertyKey} {n raw : String}

theorem defineFor_name (hraw : c.store.get? k = some raw) :
    c.defineFor k k.name = .raw raw.toList := by
  rw [defineFor, if_pos rfl, hraw]

theorem defineFor_of_ne (h : n ≠ k.name) : c.defineFor k n = c.define n := if_neg h

/-- A key of the configuration is read in the graph of the configuration. -/
theorem defineFor_of_key? (h : c.key? k.name = some k) : c.defineFor k = c.define := by
  funext n
  by_cases hn : n = k.name
  · subst hn
    rw [key?] at h
    cases hget : c.store.get? k <;> simp [defineFor, define, h, hget]
  · exact defineFor_of_ne hn

theorem readable_of_defineFor {cs : List Char} (h : c.defineFor k n = .raw cs) :
    ∃ raw, c.Readable k raw ∧ raw.toList = cs := by
  by_cases hn : n = k.name
  · rw [defineFor, if_pos hn] at h
    split at h
    · exact absurd h (by simp)
    · rename_i raw hraw
      exact ⟨raw, .inl hraw, Definition.raw.inj h⟩
  · rw [defineFor_of_ne hn] at h
    exact readable_of_define h

/-- What names stand for while the key is read. -/
def dictionaryFor (c : Configuration) (k : PropertyKey) : Dictionary where
  define := c.defineFor k
  names := k.name :: c.dictionary.names
  mem_names := by
    intro n cs h
    by_cases hn : n = k.name
    · exact List.mem_cons.mpr (.inl hn)
    · rw [defineFor_of_ne hn] at h
      exact List.mem_cons_of_mem _ (c.dictionary.mem_names h)

theorem AllFlat.dictionaryFor (h : c.AllFlat k) : (c.dictionaryFor k).AllFlat := by
  intro n cs hdef
  obtain ⟨raw, hread, rfl⟩ := readable_of_defineFor hdef
  exact h raw hread

theorem AllFlat.allNested (h : c.AllFlat k) : c.AllNested k := fun raw hread =>
  (h raw hread).wellNested

/-! ### Reads in the graph -/

/-- The value of a key is that of its name, if the name stands for the key itself. -/
theorem evaluate_eq_resolve (c : Configuration) (k : PropertyKey) :
    c.evaluate k = (resolve (c.dictionaryFor k) [] k.name).map String.ofList := by
  cases hraw : c.store.get? k with
  | none =>
    have hdef : (c.dictionaryFor k).define k.name = .unset := by
      show c.defineFor k k.name = .unset
      rw [defineFor, if_pos rfl, hraw]
    rw [evaluate, hraw, resolve_of_unset List.not_mem_nil hdef]
    rfl
  | some raw =>
    -- the name of the key is on the chain, and the other names stand for the same
    have hcongr : eval c.dictionary [k.name] (.ofText raw.toList) =
        eval (c.dictionaryFor k) [k.name] (.ofText raw.toList) :=
      eval_congr [k.name] (fun n hn => (defineFor_of_ne (by simpa using hn)).symm) _
    have hdef : (c.dictionaryFor k).define k.name = .raw raw.toList := defineFor_name hraw
    simp only [evaluate, hraw, hcongr, resolve_of_raw List.not_mem_nil hdef, List.nil_append]

theorem AllNested.get_eq_resolve (h : c.AllNested k) :
    c.get k = (resolve (c.dictionaryFor k) [] k.name).map String.ofList :=
  h.get_eq.trans (c.evaluate_eq_resolve k)

theorem exists_get_ok_iff (h : c.AllFlat k) :
    (∃ s, c.get k = .ok s) ↔ Resolves (c.dictionaryFor k) [] k.name := by
  rw [h.allNested.get_eq_resolve, Resolves]
  cases resolve (c.dictionaryFor k) [] k.name <;> simp [Except.map]

/-- A name that is referred to and stands for a value on no cycle is another name than the key. -/
theorem known_of_reached (hvalued : ∃ raw, c.defineFor k n = .raw raw)
    (hacyclic : ¬ TransGen (c.Refers k) k.name k.name) (hn : TransGen (c.Refers k) k.name n) :
    (c.key? n).isSome = true := by
  obtain ⟨raw, hdef⟩ := hvalued
  have hne : n ≠ k.name := by
    rintro rfl
    exact hacyclic hn
  rw [defineFor_of_ne hne] at hdef
  obtain ⟨k', -, hkey, -, -⟩ := define_eq_raw_iff.mp hdef
  exact Option.isSome_iff_exists.mpr ⟨k', hkey⟩

/-- **Cycle detection is sound and complete**: without references in the names of references, a key
can be read exactly if all that can be reached from it has a value, is known and lies on no cycle;
and a circular dependency is reported with a path from the key that closes. -/
theorem cycles_found (c : Configuration) (k : PropertyKey) (h : c.AllFlat k) :
    ((∃ s, c.get k = .ok s) ↔ c.Grounded k) ∧
      ∀ key chain, c.get k = .error (.circularDependency key chain) →
        c.ClosedPath k key chain := by
  constructor
  · refine (exists_get_ok_iff h).trans ((resolves_iff h.dictionaryFor).trans ?_)
    constructor
    · intro hreach
      have hacyclic := (hreach k.name .refl).2
      exact ⟨fun n hn => (hreach n hn).1,
        fun n hn => known_of_reached (hreach n hn.to_reflTransGen).1 hacyclic hn,
        fun n hn => (hreach n hn).2⟩
    · exact fun hgrounded n hn => ⟨hgrounded.valued n hn, hgrounded.acyclic n hn⟩
  · intro key chain hget
    rw [h.allNested.get_eq_resolve] at hget
    cases hres : resolve (c.dictionaryFor k) [] k.name with
    | ok v => exact absurd (hres ▸ hget) (by simp [Except.map])
    | error e =>
      obtain rfl : e = .circularDependency key chain := by simpa [hres, Except.map] using hget
      obtain ⟨hkey, path, hpath, hnodup, -, hhead, hsteps⟩ :=
        path_of_circular h.dictionaryFor [] k.name key chain hres
      obtain rfl : chain = path := hpath
      refine ⟨?_, hnodup, hsteps, hkey⟩
      cases chain with
      | nil => exact absurd hkey List.not_mem_nil
      | cons x chain => exact hhead

/-- A name that is referred to twice, and a cycle that does not come back to the start. -/
theorem cycles_found_shared :
    let c := Configuration.empty.merge
      [("t", "$\x7bx\x7d$\x7by\x7d"), ("x", "$\x7by\x7d"), ("y", "1"),
        ("u", "$\x7bv\x7d"), ("v", "$\x7bw\x7d"), ("w", "$\x7bv\x7d")]
    c.AllFlat (.custom "t") ∧ c.Grounded (.custom "t") ∧
      c.AllFlat (.custom "u") ∧ c.ClosedPath (.custom "u") "v" ["u", "v", "w"] := by
  intro c
  have hvalues : ∀ raw ∈ c.values, Flat raw.toList := by decide
  have ht : c.AllFlat (.custom "t") := fun raw h => hvalues raw h.mem_values_of_custom
  have hu : c.AllFlat (.custom "u") := fun raw h => hvalues raw h.mem_values_of_custom
  have hget : c.get (.custom "t") = .ok "11" := by
    have hone : ∀ chain, Expands c.define chain ['1'] (.ok ['1']) := fun _ => .done (by decide)
    have hy : Asks c.define ["t", "x"] "$\x7by\x7d".toList [] ['y'] [] ['1'] :=
      ⟨by decide, by decide, by decide⟩
    have hx : Asks c.define ["t"] "$\x7bx\x7d$\x7by\x7d".toList [] ['x'] "$\x7by\x7d".toList
        "$\x7by\x7d".toList := ⟨by decide, by decide, by decide⟩
    have hy' : Asks c.define ["t"] "1$\x7by\x7d".toList ['1'] ['y'] [] ['1'] :=
      ⟨by decide, by decide, by decide⟩
    have hexp : Expands c.define ["t"] "$\x7bx\x7d$\x7by\x7d".toList (.ok ['1', '1']) :=
      .replaced hx (.replaced hy (hone _) (hone _)) (.replaced hy' (hone _) (.done (by decide)))
    have hraw : c.store.get? (.custom "t") = some "$\x7bx\x7d$\x7by\x7d" := by decide
    exact get_of_expands hraw hexp
  have herr : c.get (.custom "u") = .error (.circularDependency "v" ["u", "v", "w"]) := by
    have hv : Asks c.define ["u"] "$\x7bv\x7d".toList [] ['v'] [] "$\x7bw\x7d".toList :=
      ⟨by decide, by decide, by decide⟩
    have hw : Asks c.define ["u", "v"] "$\x7bw\x7d".toList [] ['w'] [] "$\x7bv\x7d".toList :=
      ⟨by decide, by decide, by decide⟩
    have hback : next? "$\x7bv\x7d".toList = some ([], ['v'], []) := by decide
    have hexp : Expands c.define ["u"] "$\x7bv\x7d".toList
        (.error (.circularDependency "v" ["u", "v", "w"])) :=
      .failed hv (.failed hw (.circular hback (by decide)))
    have hraw : c.store.get? (.custom "u") = some "$\x7bv\x7d" := by decide
    exact get_of_expands hraw hexp
  exact ⟨ht, (c.cycles_found (.custom "t") ht).1.mp ⟨_, hget⟩,
    hu, (c.cycles_found (.custom "u") hu).2 _ _ herr⟩

end RaftAdmin.Configuration
