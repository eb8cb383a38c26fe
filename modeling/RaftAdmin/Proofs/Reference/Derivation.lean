import RaftAdmin.Proofs.Reference.Search

/-!
# Derivations of expansions

An expansion that comes to an end is a finite derivation. This module gives the rules and proves
that the derivations are the runs of `expand` that end.

## What is proved

* `exists_expand_iff` — `expand` ends with an outcome exactly if the outcome has a derivation.
* `Expands.deterministic` — a text has at most one outcome.
* `Expands.ne_nil` — what comes of a nonempty text is not empty, if no value is.
-/

namespace RaftAdmin.Reference

/-- The leftmost reference of `text` asks for a name that is not being resolved and has the raw
value `raw`. -/
structure Asks (define : Definitions) (chain : List String)
    (text before inner after raw : List Char) : Prop where
  /-- The leftmost reference. -/
  next : next? text = some (before, inner, after)
  /-- Its name is not being resolved. -/
  fresh : name inner ∉ chain
  /-- Its name has a value. -/
  value : define (name inner) = .raw raw

/-- `Expands define chain text r`: replacing the references of `text` ends with the outcome `r`,
where `define` says what names stand for and `chain` holds the names being resolved. -/
inductive Expands (define : Definitions) :
    List String → List Char → Except ConfigError (List Char) → Prop where
  /-- No reference is left. -/
  | done {chain : List String} {text : List Char} :
      next? text = none → Expands define chain text (.ok text)
  /-- The name is being resolved. -/
  | circular {chain : List String} {text before inner after : List Char} :
      next? text = some (before, inner, after) → name inner ∈ chain →
        Expands define chain text (.error (.circularDependency (name inner) chain))
  /-- No key has the name. -/
  | unknown {chain : List String} {text before inner after : List Char} :
      next? text = some (before, inner, after) → name inner ∉ chain →
        define (name inner) = .unknown →
        Expands define chain text (.error (.invalidKey (name inner)))
  /-- The key of the name has no value. -/
  | unset {chain : List String} {text before inner after : List Char} :
      next? text = some (before, inner, after) → name inner ∉ chain →
        define (name inner) = .unset →
        Expands define chain text (.error (.undefinedKey (name inner)))
  /-- The value of the name cannot be resolved. -/
  | failed {chain : List String} {text before inner after raw : List Char} {e : ConfigError} :
      Asks define chain text before inner after raw →
        Expands define (chain ++ [name inner]) raw (.error e) →
        Expands define chain text (.error e)
  /-- The reference is replaced by the value of its name. -/
  | replaced {chain : List String} {text before inner after raw value : List Char}
      {r : Except ConfigError (List Char)} :
      Asks define chain text before inner after raw →
        Expands define (chain ++ [name inner]) raw (.ok value) →
        Expands define chain (before ++ (value ++ after)) r →
        Expands define chain text r

variable {define : Definitions} {chain : List String}
  {text before inner after raw before' inner' after' raw' : List Char}
  {r r' : Except ConfigError (List Char)}

/-- A text asks for one name only. -/
theorem Asks.deterministic (h : Asks define chain text before inner after raw)
    (h' : Asks define chain text before' inner' after' raw') :
    before = before' ∧ inner = inner' ∧ after = after' ∧ raw = raw' := by
  have hnext := h.next.symm.trans h'.next
  simp only [Option.some.injEq, Prod.mk.injEq] at hnext
  obtain ⟨rfl, rfl, rfl⟩ := hnext
  exact ⟨rfl, rfl, rfl, Definition.raw.inj (h.value.symm.trans h'.value)⟩

/-- A run of `expand` that ends is a derivation. -/
theorem expands_of_expand {seen : List String} {e : Expansion}
    (h : define.expand chain seen text = some e) : Expands define chain text e.outcome := by
  refine Definitions.expand.partial_correctness define
    (fun chain _ text e => Expands define chain text e.outcome) ?_ chain seen text e h
  -- one round of the search, when the runs that it starts have derivations
  intro run ih chain seen text e h
  split at h
  · rename_i hnext
    obtain rfl := Option.some.inj h
    exact .done hnext
  · rename_i before inner after hnext
    split at h
    · rename_i hmem
      obtain rfl := Option.some.inj h
      exact .circular hnext hmem
    · rename_i hmem
      split at h
      · rename_i hdef
        obtain rfl := Option.some.inj h
        exact .unknown hnext hmem hdef
      · rename_i hdef
        obtain rfl := Option.some.inj h
        exact .unset hnext hmem hdef
      · rename_i raw hdef
        obtain ⟨e', hrun, h⟩ := Option.bind_eq_some_iff.mp h
        have hraw := ih _ _ _ _ hrun
        split at h
        · rename_i value hvalue
          rw [hvalue] at hraw
          exact .replaced ⟨hnext, hmem, hdef⟩ hraw (by simpa using ih _ _ _ _ h)
        · rename_i err herr
          obtain rfl := Option.some.inj h
          rw [herr] at hraw ⊢
          exact .failed ⟨hnext, hmem, hdef⟩ hraw

/-- A derivation is a run of `expand`, whatever names were looked up before. -/
theorem Expands.exists_expand (h : Expands define chain text r) :
    ∀ seen, ∃ e, define.expand chain seen text = some e ∧ e.outcome = r := by
  induction h with
  | done hnext =>
    intro seen
    rw [Definitions.expand, hnext]
    exact ⟨_, rfl, rfl⟩
  | circular hnext hmem =>
    intro seen
    rw [Definitions.expand, hnext]
    exact ⟨_, if_pos hmem, rfl⟩
  | unknown hnext hmem hdef =>
    intro seen
    rw [Definitions.expand, hnext]
    simp only [if_neg hmem, hdef]
    exact ⟨_, rfl, rfl⟩
  | unset hnext hmem hdef =>
    intro seen
    rw [Definitions.expand, hnext]
    simp only [if_neg hmem, hdef]
    exact ⟨_, rfl, rfl⟩
  | @failed chain text before inner after raw e hasks _ ih =>
    intro seen
    obtain ⟨e', hrun, hout⟩ := ih (seen.insert (name inner))
    refine ⟨e', ?_, hout⟩
    rw [Definitions.expand, hasks.next]
    simp only [if_neg hasks.fresh, hasks.value, hrun, hout, Option.bind_eq_bind, Option.bind_some]
  | @replaced chain text before inner after raw value r hasks _ _ ihRaw ihRest =>
    intro seen
    obtain ⟨e', hrun, hout⟩ := ihRaw (seen.insert (name inner))
    obtain ⟨e, hrest, hr⟩ := ihRest e'.consulted
    refine ⟨e, ?_, hr⟩
    rw [Definitions.expand, hasks.next]
    simp only [if_neg hasks.fresh, hasks.value, hrun, hout, Option.bind_eq_bind, Option.bind_some,
      List.append_assoc, hrest]

/-- `expand` ends with an outcome exactly if the outcome has a derivation. -/
theorem exists_expand_iff (seen : List String) :
    (∃ e, define.expand chain seen text = some e ∧ e.outcome = r) ↔
      Expands define chain text r := by
  constructor
  · rintro ⟨e, h, rfl⟩
    exact expands_of_expand h
  · exact fun h => h.exists_expand seen

/-- A text has at most one outcome. -/
theorem Expands.deterministic (h : Expands define chain text r)
    (h' : Expands define chain text r') : r = r' := by
  obtain ⟨e, hrun, rfl⟩ := h.exists_expand []
  obtain ⟨e', hrun', rfl⟩ := h'.exists_expand []
  rw [hrun] at hrun'
  rw [Option.some.inj hrun']

/-- Whether the error is about a reference. -/
def AboutReference : ConfigError → Prop
  | .circularDependency _ _ => True
  | .invalidKey _ => True
  | .undefinedKey _ => True
  | _ => False

/-- An expansion fails with an error about a reference. -/
theorem Expands.aboutReference (h : Expands define chain text r) {e : ConfigError}
    (hr : r = .error e) : AboutReference e := by
  induction h with
  | done => cases hr
  | circular | unknown | unset =>
    cases hr
    trivial
  | failed _ _ ih => exact ih hr
  | replaced _ _ _ _ ih => exact ih hr

/-- An expansion fails with an invalid key only for a name that stands for nothing. -/
theorem Expands.define_of_invalidKey {n : String} (h : Expands define chain text r)
    (hr : r = .error (.invalidKey n)) : define n = .unknown := by
  induction h with
  | done | circular | unset => cases hr
  | unknown _ _ hunknown =>
    cases hr
    exact hunknown
  | failed _ _ ih => exact ih hr
  | replaced _ _ _ _ ih => exact ih hr

/-- What comes of a nonempty text is not empty, if no value is. -/
theorem Expands.ne_nil (hd : ∀ n raw, define n = .raw raw → raw ≠ [])
    (h : Expands define chain text r) : text ≠ [] → ∀ value, r = .ok value → value ≠ [] := by
  induction h with
  | done _ =>
    rintro htext _ ⟨⟩
    exact htext
  | circular | unknown | unset => simp
  | failed => simp
  | replaced hasks _ _ ihRaw ihRest =>
    intro _
    have hvalue := ihRaw (hd _ _ hasks.value) _ rfl
    exact ihRest (by simp [hvalue])

end RaftAdmin.Reference
