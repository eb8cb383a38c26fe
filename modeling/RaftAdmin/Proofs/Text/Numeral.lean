import Mathlib.Data.List.DropRight
import Mathlib.Data.Nat.Digits.Defs
import RaftAdmin.Text.Numeral
import RaftAdmin.Text.Split

/-!
# Texts that are written and read again

A numeral is read as the number it was written for, blanks are only taken from the ends of a text,
and a text is cut at its last separator. The forms that the program writes and reads again are put
together from these.

## What is proved

* `value?_digits`, `readNat?_digits` — the numeral of a number is read as this number.
* `eq_zero_of_head?_digits` — a numeral has no needless zero in front.
* `trimChars_eq_self`, `trimChars_append_digits`, `head?_trimChars` — what trimming leaves.
* `cutLast_append`, `exists_of_cutLast`, `not_sep_of_cutLast` — a text is cut at its last separator.
-/

namespace RaftAdmin.Text

variable {c : Char} {cs : List Char} {n : Nat}

/-! ### Numerals -/

theorem isDigit_of_mem_digits (h : c ∈ digits n) : isDigit c = true :=
  Nat.isDigit_of_mem_toDigits (by decide) (by decide) h

theorem digits_ne_nil : digits n ≠ [] := Nat.toDigits_ne_nil

theorem isDigit_iff : isDigit c = true ↔ '0' ≤ c ∧ c ≤ '9' := by simp [isDigit]

theorem toNat_of_isDigit (h : isDigit c = true) : 48 ≤ c.toNat ∧ c.toNat ≤ 57 := by
  obtain ⟨hlow, hhigh⟩ := isDigit_iff.mp h
  exact ⟨hlow, hhigh⟩

theorem isBlank_of_isDigit (h : isDigit c = true) : isBlank c = false := by
  have hc := toNat_of_isDigit h
  simp only [isBlank, Bool.or_eq_false_iff, Bool.and_eq_false_iff, decide_eq_false_iff_not]
  omega

theorem valueFrom?_of_isDigit (h : ∀ c ∈ cs, isDigit c = true) (value : Nat) :
    valueFrom? 10 value cs = some (Nat.ofDigitChars 10 cs value) := by
  induction cs generalizing value with
  | nil => rfl
  | cons c cs ih =>
    obtain ⟨hc, hcs⟩ := List.forall_mem_cons.mp h
    have hvalue : digitValue? c = some (c.toNat - 48) := if_pos (isDigit_iff.mp hc)
    have hlt : c.toNat - 48 < 10 := by
      have hc := toNat_of_isDigit hc
      omega
    rw [valueFrom?, hvalue]
    dsimp only
    rw [if_pos hlt, ih hcs, Nat.ofDigitChars_cons, Nat.mul_comm]
    rfl

/-- The numeral of a number is read as this number. -/
theorem value?_digits (n : Nat) : value? 10 (digits n) = some n := by
  have hne : (digits n).isEmpty = false := List.isEmpty_eq_false_iff.mpr digits_ne_nil
  rw [value?, hne, if_neg Bool.false_ne_true, valueFrom?_of_isDigit fun c => isDigit_of_mem_digits]
  exact congrArg some Nat.ofDigitChars_ten_toDigits

/-- A numeral has no needless zero in front. -/
theorem eq_zero_of_head?_digits (h : (digits n).head? = some '0') : n = 0 := by
  induction n using Nat.strong_induction_on with
  | _ n ih =>
    by_cases hn : n < 10
    · have hone : digits n = [n.digitChar] := Nat.toDigits_of_lt_base hn
      have hread := value?_digits n
      rw [hone] at h hread
      rw [Option.some.inj h] at hread
      exact (Option.some.inj hread).symm
    · have hmore : digits n = digits (n / 10) ++ [(n % 10).digitChar] :=
        Nat.toDigits_of_base_le (by decide) (by omega)
      rw [hmore, List.head?_append_of_ne_nil _ digits_ne_nil] at h
      have hfront := ih (n / 10) (by omega) h
      omega

theorem dropPlus_digits (n : Nat) : dropPlus (digits n) = digits n := by
  unfold dropPlus
  split
  · next cs heq =>
    have hdigit : isDigit '+' = true := isDigit_of_mem_digits (n := n) (by simp [heq])
    exact absurd hdigit (by decide)
  · rfl

theorem readNat?_digits {bound : Nat} (h : n < bound) : readNat? bound (digits n) = some n := by
  rw [readNat?, dropPlus_digits, value?_digits, Option.filter_some_pos (by simpa using h)]

/-! ### Trimmed texts -/

/-- A text that neither starts nor ends with a blank is trimmed. -/
theorem trimChars_eq_self (hfirst : ∀ c, cs.head? = some c → isBlank c = false)
    (hlast : ∀ c, cs.getLast? = some c → isBlank c = false) : trimChars cs = cs := by
  have hleft : trimLeft cs = cs := by
    cases cs with
    | nil => rfl
    | cons c cs => exact List.dropWhile_cons_of_neg (by simpa using hfirst c rfl)
  have hright : trimRight cs = cs := by
    refine List.rdropWhile_eq_self_iff.mpr fun hne => ?_
    simpa using hlast _ (List.getLast?_eq_getLast_of_ne_nil hne)
  rw [trimChars, hleft, hright]

/-- A text that ends with a numeral is trimmed if it does not start with a blank. -/
theorem trimChars_append_digits (h : ∀ c, cs.head? = some c → isBlank c = false) (n : Nat) :
    trimChars (cs ++ digits n) = cs ++ digits n := by
  have hdigits : ∀ c ∈ digits n, isBlank c = false := fun c hc =>
    isBlank_of_isDigit (isDigit_of_mem_digits hc)
  refine trimChars_eq_self (fun c hc => ?_) fun c hc => ?_
  · rw [List.head?_append, Option.or_eq_some_iff] at hc
    rcases hc with hc | ⟨-, hc⟩
    · exact h c hc
    · exact hdigits c (List.mem_of_head? hc)
  · rw [List.getLast?_append_of_ne_nil _ digits_ne_nil] at hc
    exact hdigits c (List.mem_of_getLast? hc)

/-- A trimmed text does not start with a blank. -/
theorem head?_trimChars (h : (trimChars cs).head? = some c) : isBlank c = false := by
  have hprefix : trimChars cs <+: trimLeft cs := List.rdropWhile_prefix _ _
  obtain ⟨tail, htail⟩ := hprefix
  have hhead : (cs.dropWhile isBlank).head? = some c := by
    rw [show cs.dropWhile isBlank = trimChars cs ++ tail from htail.symm, List.head?_append, h]
    rfl
  simpa [hhead] using List.head?_dropWhile_not isBlank cs

/-! ### Cut texts -/

variable {sep : Char → Bool} {before after : List Char}

theorem cutLast_eq_none_iff : cutLast sep cs = none ↔ ∀ c ∈ cs, sep c = false := by
  induction cs with
  | nil => simp [cutLast]
  | cons c cs ih =>
    rw [cutLast, List.forall_mem_cons, ← ih]
    cases cutLast sep cs with
    | none => cases sep c <;> simp
    | some parts => simp

/-- A text is cut at a separator after which there is no other. -/
theorem cutLast_append (hc : sep c = true) (hafter : ∀ d ∈ after, sep d = false) :
    cutLast sep (before ++ c :: after) = some (before, after) := by
  induction before with
  | nil => rw [List.nil_append, cutLast, cutLast_eq_none_iff.mpr hafter, if_pos hc]
  | cons b bs ih => rw [List.cons_append, cutLast, ih]

theorem exists_of_cutLast (h : cutLast sep cs = some (before, after)) :
    ∃ c, sep c = true ∧ cs = before ++ c :: after := by
  induction cs generalizing before with
  | nil => cases h
  | cons c cs ih =>
    rw [cutLast] at h
    cases hcut : cutLast sep cs with
    | none =>
      rw [hcut] at h
      obtain ⟨hc, hparts⟩ := Option.ite_none_right_eq_some.mp h
      obtain ⟨rfl, rfl⟩ := Prod.mk.inj (Option.some.inj hparts)
      exact ⟨c, hc, rfl⟩
    | some parts =>
      rw [hcut] at h
      obtain ⟨rfl, rfl⟩ := Prod.mk.inj (Option.some.inj h)
      obtain ⟨d, hd, rfl⟩ := ih hcut
      exact ⟨d, hd, rfl⟩

theorem not_sep_of_cutLast (h : cutLast sep cs = some (before, after)) :
    ∀ d ∈ after, sep d = false := by
  induction cs generalizing before with
  | nil => cases h
  | cons c cs ih =>
    rw [cutLast] at h
    cases hcut : cutLast sep cs with
    | none =>
      rw [hcut] at h
      obtain ⟨-, hparts⟩ := Option.ite_none_right_eq_some.mp h
      obtain ⟨rfl, rfl⟩ := Prod.mk.inj (Option.some.inj hparts)
      exact cutLast_eq_none_iff.mp hcut
    | some parts =>
      rw [hcut] at h
      obtain ⟨rfl, rfl⟩ := Prod.mk.inj (Option.some.inj h)
      exact ih hcut

end RaftAdmin.Text
