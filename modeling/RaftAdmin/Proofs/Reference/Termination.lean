import RaftAdmin.Proofs.Reference.Derivation
import Mathlib.Order.WellFounded
import Mathlib.Tactic.Tauto

/-!
# When expansions end

Two things could keep an expansion from ending: names that lead to names without end, and one text
that is replaced without end. The first never happens. The second does, since a value may bring
braces of its own; it does not if every opening brace belongs to a `$` and is closed.

## What is proved

* `Dictionary.chain_induction` — the names being resolved can only grow so far.
* `exists_expands_iff` — an expansion ends exactly if no text that it meets is replaced without end.
* `exists_expands_of_closing` — it ends if no value has an opening brace that is stray or left open,
  whatever else of `$` and closing braces there is.
-/

namespace RaftAdmin.Reference

/-! ### Chains of names -/

/-- Meanings of names of which only finitely many have a value. -/
structure Dictionary where
  /-- What a name stands for. -/
  define : Definitions
  /-- The names that may have a value. -/
  names : List String
  /-- No other name has a value. -/
  mem_names {n : String} {raw : List Char} : define n = .raw raw → n ∈ names

namespace Dictionary

variable (d : Dictionary)

/-- How many names may still be added to a chain. -/
def room (chain : List String) : Nat := (d.names.filter (· ∉ chain)).length

theorem room_lt {chain : List String} {n : String} {raw : List Char} (hn : n ∉ chain)
    (h : d.define n = .raw raw) : d.room (chain ++ [n]) < d.room chain := by
  have hfilter : d.names.filter (· ∉ chain ++ [n]) =
      (d.names.filter (· ∉ chain)).filter (· ≠ n) := by
    rw [List.filter_filter]
    refine List.filter_congr fun m _ => ?_
    simp only [List.mem_append, List.mem_singleton, not_or, Bool.decide_and, Bool.and_comm]
  rw [room, room, hfilter]
  refine List.length_filter_lt_length_iff_exists.mpr ⟨n, ?_, by simp⟩
  exact List.mem_filter.mpr ⟨d.mem_names h, by simpa using hn⟩

/-- What holds of a chain if it holds of every longer one that ends in a name with a value, holds
of every chain. -/
theorem chain_induction {motive : List String → Prop}
    (step : ∀ chain, (∀ n raw, n ∉ chain → d.define n = .raw raw → motive (chain ++ [n])) →
      motive chain) (chain : List String) : motive chain := by
  induction hroom : d.room chain using Nat.strong_induction_on generalizing chain with
  | _ room ih =>
    refine step chain fun n raw hn hdef => ih _ ?_ _ rfl
    exact hroom ▸ d.room_lt hn hdef

end Dictionary

/-! ### Replacing without end -/

/-- One round of replacing: the leftmost reference of a text gives way to the value of its name. -/
inductive Replaces (define : Definitions) (chain : List String) :
    List Char → List Char → Prop where
  /-- The name has a value, and the value can be resolved. -/
  | intro {text before inner after raw value : List Char} :
      Asks define chain text before inner after raw →
        Expands define (chain ++ [name inner]) raw (.ok value) →
        Replaces define chain text (before ++ (value ++ after))

/-- `Meets define chain text chain' text'`: expanding `text` comes to expand `text'`, while the
names of `chain'` are being resolved. -/
inductive Meets (define : Definitions) :
    List String → List Char → List String → List Char → Prop where
  /-- The text itself. -/
  | here {chain : List String} {text : List Char} : Meets define chain text chain text
  /-- What replacing its leftmost reference leads to. -/
  | replaced {chain chain' : List String} {text text₁ text' : List Char} :
      Replaces define chain text text₁ → Meets define chain text₁ chain' text' →
        Meets define chain text chain' text'
  /-- The value of its leftmost reference. -/
  | nested {chain chain' : List String} {text before inner after raw text' : List Char} :
      Asks define chain text before inner after raw →
        Meets define (chain ++ [name inner]) raw chain' text' →
        Meets define chain text chain' text'

/-- Replacing the leftmost reference of the text, again and again, comes to an end. -/
def Settles (define : Definitions) (chain : List String) : List Char → Prop :=
  Acc fun text' text => Replaces define chain text text'

variable {define : Definitions} {chain : List String} {text : List Char}

/-- Every text that is met settles, if those that one round or one reference leads to do. -/
theorem settles_of_meets
    (hrep : ∀ text₁, Replaces define chain text text₁ → ∀ chain' text',
      Meets define chain text₁ chain' text' → Settles define chain' text')
    (hask : ∀ before inner after raw, Asks define chain text before inner after raw →
      ∀ chain' text', Meets define (chain ++ [name inner]) raw chain' text' →
        Settles define chain' text')
    (chain' : List String) (text' : List Char) (h : Meets define chain text chain' text') :
    Settles define chain' text' := by
  cases h with
  | here => exact .intro _ fun _ h => hrep _ h _ _ .here
  | replaced h hmeets => exact hrep _ h _ _ hmeets
  | nested h hmeets => exact hask _ _ _ _ h _ _ hmeets

/-- Nothing is replaced in a text that asks for no name. -/
theorem settles_of_not_asks
    (h : ∀ before inner after raw, ¬ Asks define chain text before inner after raw)
    (chain' : List String) (text' : List Char) (hmeets : Meets define chain text chain' text') :
    Settles define chain' text' := by
  refine settles_of_meets (fun text₁ hrep => ?_) (fun _ _ _ _ hasks => ?_) chain' text' hmeets
  · obtain ⟨hasks, -⟩ := hrep
    exact absurd hasks (h _ _ _ _)
  · exact absurd hasks (h _ _ _ _)

/-- An expansion that ends meets only texts that settle. -/
theorem Expands.settles {r : Except ConfigError (List Char)} (h : Expands define chain text r) :
    ∀ chain' text', Meets define chain text chain' text' → Settles define chain' text' := by
  induction h with
  | done hnext =>
    refine settles_of_not_asks fun _ _ _ _ h => ?_
    exact absurd (hnext.symm.trans h.next) (by simp)
  | circular hnext hmem =>
    refine settles_of_not_asks fun _ _ _ _ h => h.fresh ?_
    obtain ⟨-, rfl, -⟩ := by simpa using hnext.symm.trans h.next
    exact hmem
  | unknown hnext _ hdef | unset hnext _ hdef =>
    refine settles_of_not_asks fun _ _ _ _ h => ?_
    obtain ⟨-, rfl, -⟩ := by simpa using hnext.symm.trans h.next
    exact absurd (hdef.symm.trans h.value) (by simp)
  | failed hasks hraw ih =>
    refine settles_of_meets (fun text₁ hrep => ?_) (fun _ _ _ _ h => ?_)
    · obtain ⟨h, hval⟩ := hrep
      obtain ⟨rfl, rfl, rfl, rfl⟩ := hasks.deterministic h
      exact absurd (hraw.deterministic hval) (by simp)
    · obtain ⟨rfl, rfl, rfl, rfl⟩ := hasks.deterministic h
      exact ih
  | replaced hasks hraw _ ihRaw ihRest =>
    refine settles_of_meets (fun text₁ hrep => ?_) (fun _ _ _ _ h => ?_)
    · obtain ⟨h, hval⟩ := hrep
      obtain ⟨rfl, rfl, rfl, rfl⟩ := hasks.deterministic h
      obtain rfl := Except.ok.inj (hraw.deterministic hval)
      exact ihRest
    · obtain ⟨rfl, rfl, rfl, rfl⟩ := hasks.deterministic h
      exact ihRaw

/-- An expansion ends if every text that it meets settles. -/
theorem exists_expands_of_settles (d : Dictionary) (chain : List String) :
    ∀ text, (∀ chain' text', Meets d.define chain text chain' text' →
      Settles d.define chain' text') → ∃ r, Expands d.define chain text r := by
  induction chain using d.chain_induction with
  | step chain ihChain =>
    intro text hsettles
    -- the rounds on this text are finitely many; each of them resolves a name by `ihChain`
    induction hsettles _ _ .here with
    | intro text _ ihText =>
      cases hnext : next? text with
      | none => exact ⟨_, .done hnext⟩
      | some found =>
        obtain ⟨before, inner, after⟩ := found
        by_cases hmem : name inner ∈ chain
        · exact ⟨_, .circular hnext hmem⟩
        · cases hdef : d.define (name inner) with
          | unknown => exact ⟨_, .unknown hnext hmem hdef⟩
          | unset => exact ⟨_, .unset hnext hmem hdef⟩
          | raw raw =>
            have hasks : Asks d.define chain text before inner after raw := ⟨hnext, hmem, hdef⟩
            obtain ⟨r, hraw⟩ := ihChain _ _ hmem hdef raw fun _ _ h =>
              hsettles _ _ (.nested hasks h)
            cases r with
            | error e => exact ⟨_, .failed hasks hraw⟩
            | ok value =>
              have hrep : Replaces d.define chain text (before ++ (value ++ after)) :=
                .intro hasks hraw
              obtain ⟨r, hrest⟩ := ihText _ hrep fun _ _ h => hsettles _ _ (.replaced hrep h)
              exact ⟨r, .replaced hasks hraw hrest⟩

/-- **An expansion ends** exactly if none of the texts that it meets is replaced without end. -/
theorem exists_expands_iff (d : Dictionary) (chain : List String) (text : List Char) :
    (∃ r, Expands d.define chain text r) ↔
      ¬ ∃ (chain' : List String) (run : ℕ → List Char), Meets d.define chain text chain' (run 0) ∧
        ∀ n, Replaces d.define chain' (run n) (run (n + 1)) := by
  constructor
  · rintro ⟨r, h⟩ ⟨chain', run, hmeets, hrun⟩
    exact not_acc_iff_exists_descending_chain.mpr ⟨run, rfl, hrun⟩ (h.settles _ _ hmeets)
  · intro h
    refine exists_expands_of_settles d chain text fun chain' text' hmeets => ?_
    by_contra hacc
    obtain ⟨run, rfl, hrun⟩ := not_acc_iff_exists_descending_chain.mp hacc
    exact h ⟨chain', run, hmeets, hrun⟩

/-! ### Opening braces that are closed -/

/-- Every opening brace directly follows a `$` and has a closing brace of its own. Other closing
braces and other `$` may stand anywhere. -/
def Closing (cs : List Char) : Prop :=
  ∀ n < cs.length, cs[n]? = some '\x7b' → (cs.take n).getLast? = some '$' ∧
    (cs.drop (n + 1)).count '\x7b' < (cs.drop (n + 1)).count '\x7d'

instance (cs : List Char) : Decidable (Closing cs) :=
  inferInstanceAs (Decidable (∀ n < cs.length, _))

theorem closing_iff {cs : List Char} :
    Closing cs ↔ ∀ before after, cs = before ++ '\x7b' :: after →
      before.getLast? = some '$' ∧ after.count '\x7b' < after.count '\x7d' := by
  constructor
  · rintro h before after rfl
    simpa using h before.length (by simp) (by simp)
  · intro h n hn hbrace
    obtain ⟨_, hbrace⟩ := List.getElem?_eq_some_iff.mp hbrace
    refine h (cs.take n) (cs.drop (n + 1)) ?_
    rw [← hbrace, ← List.drop_eq_getElem_cons hn, List.take_append_drop]

/-- If no reference is left, no opening brace is left. -/
theorem Closing.not_mem_of_done (h : Closing text) (hnext : next? text = none) :
    '\x7b' ∉ text := by
  intro hmem
  -- the last opening brace and the first closing brace after it are the ends of a reference
  obtain ⟨rest, before, hrev, hrest⟩ := List.eq_append_cons_of_mem (List.mem_reverse.mpr hmem)
  obtain rfl : text = before.reverse ++ '\x7b' :: rest.reverse := by
    rw [← List.reverse_reverse text, hrev]
    simp
  obtain ⟨hlast, hcount⟩ := closing_iff.mp h _ _ rfl
  obtain ⟨front, hfront⟩ := List.getLast?_eq_some_iff.mp hlast
  have hclose : '\x7d' ∈ rest.reverse := List.count_pos_iff.mp (by omega)
  obtain ⟨inner, after, hsplit, hinner⟩ := List.eq_append_cons_of_mem hclose
  have hplain : Plain inner := ⟨fun h => hrest (by
    rw [← List.mem_reverse, hsplit]; exact List.mem_append_left _ h), hinner⟩
  refine next?_eq_none_iff.mp hnext front inner after hplain ?_
  rw [hfront, hsplit]
  simp [written]

theorem count_open_written {inner : List Char} (h : Plain inner) :
    (written inner).count '\x7b' = 1 := by
  simp [written, List.count_eq_zero.mpr h.1]

theorem count_close_written {inner : List Char} (h : Plain inner) :
    (written inner).count '\x7d' = 1 := by
  simp [written, List.count_eq_zero.mpr h.2]

theorem getLast?_append_written (cs inner : List Char) :
    (cs ++ written inner).getLast? = some '\x7d' := by
  rw [written, ← List.cons_append, ← List.cons_append, ← List.append_assoc, List.getLast?_concat]

/-- Replacing a reference by a text without opening braces leaves every opening brace closed. -/
theorem Closing.replace {before inner after value : List Char} (hinner : Plain inner)
    (h : Closing (before ++ (written inner ++ after))) (hvalue : '\x7b' ∉ value) :
    Closing (before ++ (value ++ after)) := by
  rw [closing_iff] at h ⊢
  have hafter : ∀ a, after ≠ '\x7b' :: a := by
    rintro a rfl
    have hlast := (h (before ++ written inner) a (by simp)).1
    rw [getLast?_append_written] at hlast
    exact absurd hlast (by decide)
  intro b a heq
  rcases List.append_eq_append_iff.mp heq with ⟨cs, rfl, hcs⟩ | ⟨cs, rfl, hcs⟩
  · rcases List.append_eq_append_iff.mp hcs with ⟨ds, rfl, rfl⟩ | ⟨ds, rfl, hds⟩
    · -- the brace stands after the reference
      obtain ⟨hlast, hcount⟩ := h (before ++ (written inner ++ ds)) a (by simp)
      refine ⟨?_, hcount⟩
      cases ds with
      | nil => exact absurd rfl (hafter a)
      | cons d ds => simpa [List.getLast?_append] using hlast
    · cases ds with
      | nil => exact absurd hds.symm (hafter a)
      | cons d ds => simp_all
  · cases cs with
    | nil =>
      cases value with
      | nil => exact absurd (by simpa using hcs.symm) (hafter a)
      | cons c value => simp_all
    | cons c cs =>
      -- the brace stands before the reference
      obtain ⟨rfl, rfl⟩ : '\x7b' = c ∧ a = cs ++ (value ++ after) := by simpa using hcs
      obtain ⟨hlast, hcount⟩ := h b (cs ++ (written inner ++ after)) (by simp)
      refine ⟨hlast, ?_⟩
      simp only [List.count_append, count_open_written hinner, count_close_written hinner,
        List.count_eq_zero.mpr hvalue] at hcount ⊢
      omega

/-- **An expansion ends** if in every value each opening brace is closed, and the resulting text
has no opening brace. -/
theorem exists_expands_of_closing (d : Dictionary)
    (hd : ∀ n raw, d.define n = .raw raw → Closing raw) (chain : List String) :
    ∀ text, Closing text →
      ∃ r, Expands d.define chain text r ∧ ∀ value, r = .ok value → '\x7b' ∉ value := by
  induction chain using d.chain_induction with
  | step chain ihChain =>
    intro text htext
    -- every round takes one opening brace away
    induction hcount : text.count '\x7b' using Nat.strong_induction_on generalizing text with
    | _ count ihCount =>
      cases hnext : next? text with
      | none =>
        refine ⟨_, .done hnext, ?_⟩
        rintro _ ⟨⟩
        exact htext.not_mem_of_done hnext
      | some found =>
        obtain ⟨before, inner, after⟩ := found
        by_cases hmem : name inner ∈ chain
        · exact ⟨_, .circular hnext hmem, by simp⟩
        · cases hdef : d.define (name inner) with
          | unknown => exact ⟨_, .unknown hnext hmem hdef, by simp⟩
          | unset => exact ⟨_, .unset hnext hmem hdef, by simp⟩
          | raw raw =>
            have hasks : Asks d.define chain text before inner after raw := ⟨hnext, hmem, hdef⟩
            obtain ⟨r, hraw, hvalue⟩ := ihChain _ _ hmem hdef raw (hd _ _ hdef)
            cases r with
            | error e => exact ⟨_, .failed hasks hraw, by simp⟩
            | ok value =>
              have hopen := hvalue value rfl
              obtain ⟨rfl, hinner⟩ := eq_of_next? hnext
              have hless : (before ++ (value ++ after)).count '\x7b' < count := by
                simp only [← hcount, List.count_append, count_open_written hinner,
                  List.count_eq_zero.mpr hopen]
                omega
              obtain ⟨r, hrest, hr⟩ := ihCount _ hless _ (htext.replace hinner hopen) rfl
              exact ⟨r, .replaced hasks hraw hrest, hr⟩

end RaftAdmin.Reference
