import RaftAdmin.Proofs.Configuration.Reading

/-!
# When reads end

The names being resolved cannot grow without end, so a read that does not return replaces one text
for ever.

## What is proved

* `ends_iff` — which reads come to an end: those that meet no text replaced without end. Among them
  are all reads of values in which every opening brace is closed.
* `exists_not_ends` — a read that never ends, though it meets no name that is being resolved.
-/

namespace RaftAdmin.Configuration

open Reference

variable {c : Configuration} {k : PropertyKey} {raw : String}

/-- The read replaces a text without end: the texts of `run` come one after the other, each with its
leftmost reference replaced by the value of its name, while the names of `chain` are being
resolved. -/
def Loops (c : Configuration) (k : PropertyKey) (chain : List String) (run : ℕ → List Char) :
    Prop :=
  (∃ raw, c.store.get? k = some raw ∧
    Meets c.define [k.name] raw.toList chain (run 0)) ∧
  ∀ n, Replaces c.define chain (run n) (run (n + 1))

/-- **A read comes to an end** exactly if it replaces no text without end. It does so whatever `$`
and closing braces the values have, as long as each of their opening braces directly follows a `$`
and is closed. -/
theorem ends_iff (c : Configuration) (k : PropertyKey) :
    (c.Ends k ↔ ∀ chain run, ¬ c.Loops k chain run) ∧
      ((∀ raw, c.Readable k raw → Closing raw.toList) → c.Ends k) := by
  cases hraw : c.store.get? k with
  | none =>
    have hends := ends_of_unset hraw
    refine ⟨⟨fun _ chain run hloops => ?_, fun _ => hends⟩, fun _ => hends⟩
    obtain ⟨⟨raw, hget, -⟩, -⟩ := hloops
    exact absurd (hraw.symm.trans hget) (by simp)
  | some raw =>
    rw [ends_iff_exists_expands hraw]
    constructor
    · refine (exists_expands_iff c.dictionary [k.name] raw.toList).trans ?_
      constructor
      · rintro h chain run ⟨⟨raw', hget, hmeets⟩, hrun⟩
        obtain rfl := Option.some.inj (hraw.symm.trans hget)
        exact h ⟨chain, run, hmeets, hrun⟩
      · rintro h ⟨chain, run, hmeets, hrun⟩
        exact h chain run ⟨⟨raw, hraw, hmeets⟩, hrun⟩
    · intro hclosing
      have hd : ∀ n cs, c.dictionary.define n = .raw cs → Closing cs := by
        intro n cs hdef
        obtain ⟨raw', hread, rfl⟩ := readable_of_define hdef
        exact hclosing raw' hread
      obtain ⟨r, hr, -⟩ := exists_expands_of_closing c.dictionary hd [k.name] raw.toList
        (hclosing raw (.inl hraw))
      exact ⟨r, hr⟩

/-- Values with a closing brace too many. -/
theorem ends_of_stray_closing_braces :
    let c := Configuration.empty.merge [("t", "a\x7d$\x7b x \x7d\x7d"), ("x", "b\x7d$")]
    (∀ raw, c.Readable (.custom "t") raw → Closing raw.toList) ∧ c.Ends (.custom "t") := by
  intro c
  have hvalues : ∀ raw ∈ c.values, Closing raw.toList := by decide
  have hclosing : ∀ raw, c.Readable (.custom "t") raw → Closing raw.toList :=
    fun raw h => hvalues raw h.mem_values_of_custom
  exact ⟨hclosing, (c.ends_iff (.custom "t")).2 hclosing⟩

/-- **A read that never ends**, though each of the three values alone has no reference to a name
that is being resolved: `x` and `y` take turns to form a reference with what stands around them. -/
theorem exists_not_ends :
    ∃ (c : Configuration) (k : PropertyKey), c.Reached ∧ c.key? k.name = some k ∧ ¬ c.Ends k := by
  let c := Configuration.empty.merge
    [("t", "$$\x7bx\x7d"), ("x", "\x7by\x7d\x7bx\x7d"), ("y", "$$")]
  let whole := "$$\x7bx\x7d".toList
  let half := "$\x7by\x7d\x7bx\x7d".toList
  have hx : Replaces c.define ["t"] whole half := by
    have hasks : Asks c.define ["t"] whole ['$'] ['x'] [] "\x7by\x7d\x7bx\x7d".toList :=
      ⟨by decide, by decide, by decide⟩
    exact .intro hasks (.done (by decide))
  have hy : Replaces c.define ["t"] half whole := by
    have hasks : Asks c.define ["t"] half [] ['y'] "\x7bx\x7d".toList "$$".toList :=
      ⟨by decide, by decide, by decide⟩
    exact .intro hasks (.done (by decide))
  refine ⟨c, .custom "t", .merge _ .empty, by decide, fun hends => ?_⟩
  refine (ends_iff c (.custom "t")).1.mp hends ["t"] (fun n => if n % 2 = 0 then whole else half)
    ⟨⟨"$$\x7bx\x7d", by decide, .here⟩, fun n => ?_⟩
  by_cases hn : n % 2 = 0
  · have hn' : (n + 1) % 2 ≠ 0 := by omega
    simpa only [if_pos hn, if_neg hn'] using hx
  · have hn' : (n + 1) % 2 = 0 := by omega
    simpa only [if_neg hn, if_pos hn'] using hy

end RaftAdmin.Configuration
