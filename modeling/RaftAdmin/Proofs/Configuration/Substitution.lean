import RaftAdmin.Proofs.Configuration.Reading
import RaftAdmin.Proofs.Reference.Evaluation

/-!
# What a well-nested value means

Reading a key evaluates the template of its raw value, if the braces of every value belong to
references.

## What is proved

* `get_eq_evaluate` — a read of well-nested values ends, with what the template of the raw value
  evaluates to, be it a value or an error.
-/

namespace RaftAdmin.Configuration

open Reference

/-- The value of a key, by the structure of its raw value. -/
def evaluate (c : Configuration) (k : PropertyKey) : Except ConfigError String :=
  match c.store.get? k with
  | none => .error (.undefinedKey k.name)
  | some raw => (eval c.dictionary [k.name] (.ofText raw.toList)).map String.ofList

/-- The braces of every value that reading the key may come to see belong to references. -/
def AllNested (c : Configuration) (k : PropertyKey) : Prop :=
  ∀ raw, c.Readable k raw → WellNested raw.toList

variable {c : Configuration} {k : PropertyKey} {n raw : String}

theorem AllNested.wellNested (h : c.AllNested k) (cs : List Char)
    (hdef : c.dictionary.define n = .raw cs) : WellNested cs := by
  obtain ⟨raw, hread, rfl⟩ := readable_of_define hdef
  exact h raw hread

/-- Expanding the raw value of a key ends with what its template evaluates to. -/
theorem AllNested.expands (h : c.AllNested k) (hraw : c.store.get? k = some raw) :
    Expands c.define [k.name] raw.toList (eval c.dictionary [k.name] (.ofText raw.toList)) := by
  have hexp := expands_render (d := c.dictionary) (fun n cs => h.wellNested cs) [k.name]
    (.ofText raw.toList)
  rwa [(h raw (.inl hraw)).render_ofText] at hexp

theorem AllNested.ends (h : c.AllNested k) : c.Ends k := by
  cases hraw : c.store.get? k with
  | none => exact ends_of_unset hraw
  | some raw => exact (ends_iff_exists_expands hraw).mpr ⟨_, h.expands hraw⟩

theorem AllNested.get_eq (h : c.AllNested k) : c.get k = c.evaluate k := by
  cases hraw : c.store.get? k with
  | none => simp [get, expansion, evaluate, hraw, Except.map]
  | some raw => rw [get_of_expands hraw (h.expands hraw), evaluate, hraw]

/-- **Substitution means what its syntax says**: if all values are well nested, a read ends, and it
returns what the template of the raw value evaluates to. -/
theorem get_eq_evaluate (c : Configuration) (k : PropertyKey) (h : c.AllNested k) :
    c.Ends k ∧ c.get k = c.evaluate k :=
  ⟨h.ends, h.get_eq⟩

/-- References in the name of a reference, blanks around a name, and a `$` of no reference. -/
theorem get_eq_evaluate_nested :
    let c := Configuration.empty.merge
      [("t", "$$\x7b$\x7bx\x7d.$\x7b y \x7d\x7d/$\x7bx\x7d"), ("x", "a"), ("y", "b"),
        ("a.b", "$\x7bquorumsh.home\x7d")]
    c.AllNested (.custom "t") ∧ c.Ends (.custom "t") ∧
      c.get (.custom "t") = c.evaluate (.custom "t") := by
  intro c
  have hvalues : ∀ raw ∈ c.values, WellNested raw.toList := by decide
  have hnested : c.AllNested (.custom "t") := fun raw h => hvalues raw h.mem_values_of_custom
  exact ⟨hnested, c.get_eq_evaluate (.custom "t") hnested⟩

end RaftAdmin.Configuration
