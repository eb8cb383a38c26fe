import RaftAdmin.Proofs.Text.Split
import RaftAdmin.Text.Listing

/-!
# Texts in all their spellings

A number may be written with a plus sign and zeros in front, a text may have blanks at both ends,
and a list is its entries with separators between them. This module says exactly which texts are
read as the same thing.

## What is proved

* `exists_blanks`, `trimChars_append` — trimming takes the blanks at both ends of a text, whatever
  they are.
* `head?_trimChars_append`, `getLast?_trimChars` — how a trimmed text starts and ends.
* `value?_eq_some_iff`, `readNat?_eq_some_iff`, `readInt?_eq_negSucc_iff` — a number is read from
  its numeral with zeros and a sign in front, and from nothing else.
* `nonblankParts_joinWith` — the entries that a list is made of are found in it again.
* `nonblankParts_joinWith_eq_flatMap` — lists with separators between them have the entries of all.
-/

namespace RaftAdmin.Text

variable {c : Char} {cs front back : List Char} {n : Nat}

/-! ### Blanks at the ends -/

/-- Trimming takes the blanks at both ends. -/
theorem exists_blanks (cs : List Char) :
    ∃ front back, (∀ c ∈ front, isBlank c = true) ∧ (∀ c ∈ back, isBlank c = true) ∧
      cs = front ++ trimChars cs ++ back := by
  refine ⟨cs.takeWhile isBlank, (trimLeft cs).rtakeWhile isBlank,
    fun c => List.mem_takeWhile_imp, fun c => List.mem_rtakeWhile_imp, ?_⟩
  have hright : trimChars cs ++ (trimLeft cs).rtakeWhile isBlank = trimLeft cs :=
    List.rdropWhile_append_rtakeWhile
  rw [List.append_assoc, hright, trimLeft, List.takeWhile_append_dropWhile]

theorem trimLeft_append (h : ∀ c ∈ front, isBlank c = true) (cs : List Char) :
    trimLeft (front ++ cs) = trimLeft cs :=
  List.dropWhile_append_of_pos h

theorem trimRight_append (h : ∀ c ∈ back, isBlank c = true) (cs : List Char) :
    trimRight (cs ++ back) = trimRight cs := by
  rw [trimRight, List.reverse_append, List.dropWhile_append_of_pos (by simpa using h), trimRight]

/-- Trimming does not depend on the blanks at the ends. -/
theorem trimChars_append (hfront : ∀ c ∈ front, isBlank c = true)
    (hback : ∀ c ∈ back, isBlank c = true) (cs : List Char) :
    trimChars (front ++ cs ++ back) = trimChars cs := by
  rw [trimChars, List.append_assoc, trimLeft_append hfront, trimLeft, List.dropWhile_append]
  split
  · next hblank =>
    -- the text is nothing but blanks, and so are the blanks behind it
    have hcs : trimLeft cs = [] := List.isEmpty_iff.mp hblank
    rw [trimChars, hcs, List.dropWhile_eq_nil_iff.mpr hback]
  · exact trimRight_append hback _

theorem trimChars_trimChars (cs : List Char) : trimChars (trimChars cs) = trimChars cs := by
  obtain ⟨front, back, hfront, hback, hcs⟩ := exists_blanks cs
  conv_rhs => rw [hcs]
  exact (trimChars_append hfront hback _).symm

theorem trimChars_eq_nil_iff : trimChars cs = [] ↔ ∀ c ∈ cs, isBlank c = true := by
  constructor
  · intro h
    obtain ⟨front, back, hfront, hback, hcs⟩ := exists_blanks cs
    rw [hcs, h, List.append_nil]
    exact List.forall_mem_append.mpr ⟨hfront, hback⟩
  · intro h
    have hleft : trimLeft cs = [] := List.dropWhile_eq_nil_iff.mpr h
    rw [trimChars, hleft]
    rfl

theorem trim_eq_self_iff {s : String} : trim s = s ↔ trimChars s.toList = s.toList := by
  rw [trim, ← String.toList_inj, String.toList_ofList]

theorem trimChars_subset (cs : List Char) : trimChars cs ⊆ cs := by
  obtain ⟨front, back, -, -, hcs⟩ := exists_blanks cs
  conv_rhs => rw [hcs]
  exact fun c hc => List.mem_append_left _ (List.mem_append_right _ hc)

/-- Trimming the end of a text leaves how it starts. -/
theorem head?_trimChars_eq (cs : List Char) : (trimChars cs).head? = (trimLeft cs).head? := by
  cases hcs : trimLeft cs with
  | nil =>
    rw [trimChars, hcs]
    rfl
  | cons c tail =>
    have hc : isBlank c = false := by
      have hhead := List.head?_dropWhile_not isBlank cs
      rwa [show cs.dropWhile isBlank = c :: tail from hcs] at hhead
    have hne : trimRight (c :: tail) ≠ [] := fun hnil => by
      simpa [hc] using List.rdropWhile_eq_nil_iff.mp hnil c List.mem_cons_self
    obtain ⟨back, hback⟩ : trimRight (c :: tail) <+: c :: tail := List.rdropWhile_prefix _ _
    rw [trimChars, hcs, ← List.head?_append_of_ne_nil _ hne, hback]

/-- What follows a text that is not blank does not matter to how it starts when it is trimmed. -/
theorem head?_trimChars_append (h : trimChars cs ≠ []) (rest : List Char) :
    (trimChars (cs ++ rest)).head? = (trimChars cs).head? := by
  have hleft : trimLeft cs ≠ [] := fun hnil => h (by rw [trimChars, hnil]; rfl)
  have hrest : trimLeft (cs ++ rest) = trimLeft cs ++ rest := by
    unfold trimLeft at hleft ⊢
    rw [List.dropWhile_append, if_neg (mt List.isEmpty_iff.mp hleft)]
  rw [head?_trimChars_eq, head?_trimChars_eq, hrest, List.head?_append_of_ne_nil _ hleft]

/-- A trimmed text does not end with a blank. -/
theorem getLast?_trimChars (h : (trimChars cs).getLast? = some c) : isBlank c = false := by
  have hhead : ((trimLeft cs).reverse.dropWhile isBlank).head? = some c := by
    rwa [trimChars, trimRight, List.getLast?_reverse] at h
  simpa [hhead] using List.head?_dropWhile_not isBlank (trimLeft cs).reverse

/-! ### Numerals -/

/-- A digit is the numeral of its value. -/
theorem digits_of_digitValue? {d : Nat} (h : digitValue? c = some d) (hd : d < 10) :
    digits d = [c] := by
  have hdigit : '0' ≤ c ∧ c ≤ '9' := by
    by_contra hc
    -- the digits that are letters are worth ten or more
    simp only [digitValue?, if_neg hc] at h
    split_ifs at h <;> cases h <;> omega
  have hvalue : c.toNat - 48 = d := by
    rw [digitValue?, if_pos hdigit] at h
    exact Option.some.inj h
  have hlow := (toNat_of_isDigit (isDigit_iff.mpr hdigit)).1
  have hone : digits d = [d.digitChar] := Nat.toDigits_of_lt_base hd
  have hchar : d.digitChar = c := by
    rw [← Char.toNat_inj, Nat.toNat_digitChar_of_lt_ten hd]
    omega
  rw [hone, hchar]

/-- Digits that follow a number, unless it is zero, follow its numeral. -/
theorem digits_append_of_valueFrom? {value : Nat} (hpos : 0 < value)
    (h : valueFrom? 10 value cs = some n) : digits value ++ cs = digits n := by
  induction cs generalizing value with
  | nil =>
    obtain rfl := Option.some.inj h
    exact List.append_nil _
  | cons c cs ih =>
    rw [valueFrom?] at h
    cases hdigit : digitValue? c with
    | none => simp [hdigit] at h
    | some d =>
      simp only [hdigit] at h
      obtain ⟨hd, hrest⟩ := Option.ite_none_right_eq_some.mp h
      have hjoin : digits value ++ digits d = digits (10 * value + d) :=
        Nat.toDigits_append_toDigits (by decide) hpos hd
      calc
        digits value ++ c :: cs = digits value ++ digits d ++ cs := by
          rw [digits_of_digitValue? hdigit hd, List.append_cons]
        _ = digits (value * 10 + d) ++ cs := by rw [hjoin, Nat.mul_comm]
        _ = digits n := ih (by omega) hrest

/-- A zero in front is not seen, unless it is all there is. -/
theorem value?_zero_cons (h : cs ≠ []) : value? 10 ('0' :: cs) = value? 10 cs := by
  rw [value?, value?, List.isEmpty_cons, List.isEmpty_eq_false_iff.mpr h]
  rfl

/-- A number is read from its numeral with zeros in front. -/
theorem value?_eq_some_iff :
    value? 10 cs = some n ↔ ∃ zeros, cs = List.replicate zeros '0' ++ digits n := by
  constructor
  · intro h
    induction cs with
    | nil => cases h
    | cons c cs ih =>
      have hread : valueFrom? 10 0 (c :: cs) = some n := h
      rw [valueFrom?] at hread
      cases hdigit : digitValue? c with
      | none => simp [hdigit] at hread
      | some d =>
        simp only [hdigit, Nat.zero_mul, Nat.zero_add] at hread
        obtain ⟨hd, hrest⟩ := Option.ite_none_right_eq_some.mp hread
        have hc : digits d = [c] := digits_of_digitValue? hdigit hd
        rcases Nat.eq_zero_or_pos d with rfl | hpos
        · obtain rfl : '0' = c := (List.cons.inj hc).1
          cases cs with
          | nil =>
            obtain rfl := Option.some.inj hrest
            exact ⟨0, rfl⟩
          | cons e es =>
            rw [value?_zero_cons (List.cons_ne_nil e es)] at h
            obtain ⟨zeros, hzeros⟩ := ih h
            exact ⟨zeros + 1, by rw [List.replicate_succ, List.cons_append, ← hzeros]⟩
        · refine ⟨0, ?_⟩
          have hall := digits_append_of_valueFrom? hpos hrest
          rwa [hc] at hall
  · rintro ⟨zeros, rfl⟩
    induction zeros with
    | zero => exact value?_digits n
    | succ zeros ih =>
      rw [List.replicate_succ, List.cons_append, value?_zero_cons (by simp [digits_ne_nil]), ih]

/-- The numeral of a number with or without a plus sign, and with so many zeros in front. -/
def longNumeral (plus : Bool) (zeros n : Nat) : List Char :=
  (if plus then ['+'] else []) ++ (List.replicate zeros '0' ++ digits n)

/-- A number is read from its numeral with zeros and a plus sign in front. -/
theorem readNat?_eq_some_iff {bound : Nat} :
    readNat? bound cs = some n ↔ n < bound ∧ ∃ plus zeros, cs = longNumeral plus zeros n := by
  rw [readNat?, Option.filter_eq_some_iff, decide_eq_true_eq, and_comm, value?_eq_some_iff]
  refine and_congr_right fun _ => ⟨?_, ?_⟩
  · rintro ⟨zeros, hdrop⟩
    unfold dropPlus at hdrop
    split at hdrop
    · exact ⟨true, zeros, by rw [hdrop]; rfl⟩
    · exact ⟨false, zeros, hdrop⟩
  · rintro ⟨plus, zeros, rfl⟩
    refine ⟨zeros, ?_⟩
    cases plus with
    | true => rfl
    | false =>
      -- what stands in front is a digit, hence no plus sign
      cases zeros with
      | zero => exact dropPlus_digits n
      | succ zeros => rfl

/-- A negative number is read from a minus sign and its numeral with zeros in front. -/
theorem readInt?_eq_negSucc_iff {bound : Nat} :
    readInt? bound cs = some (.negSucc n) ↔
      n < bound ∧ ∃ zeros, cs = '-' :: (List.replicate zeros '0' ++ digits (n + 1)) := by
  have hneg (m : Nat) : -(m : Int) = .negSucc n ↔ m = n + 1 := by omega
  rw [Nat.lt_iff_add_one_le]
  unfold readInt?
  split
  · simp [Option.bind_eq_some_iff, Option.filter_eq_some_iff, hneg, value?_eq_some_iff, and_comm]
  · next hminus =>
    constructor
    · intro h
      simp [Option.bind_eq_some_iff] at h
    · rintro ⟨-, zeros, hcs⟩
      exact (hminus _ hcs).elim

theorem isDigit_or_plus_of_mem_longNumeral {plus : Bool} {zeros : Nat}
    (h : c ∈ longNumeral plus zeros n) : isDigit c = true ∨ c = '+' := by
  rcases List.mem_append.mp h with h | h
  · cases plus with
    | true => exact .inr (List.mem_singleton.mp h)
    | false => cases h
  · rcases List.mem_append.mp h with h | h
    · exact .inl ((List.eq_of_mem_replicate h) ▸ by decide)
    · exact .inl (isDigit_of_mem_digits h)

/-! ### Lists -/

theorem toList_joinWith (separator : String) (items : List String) :
    (joinWith separator items).toList = separator.toList.intercalate (items.map String.toList) := by
  induction items with
  | nil => rfl
  | cons item items ih =>
    cases items with
    | nil => simp [joinWith]
    | cons next items =>
      simp only [joinWith, String.toList_append, ih, List.map_cons, List.intercalate_cons_cons,
        List.append_assoc]

/-- The parts that a text is made of, with separators between them, are found in it again. -/
theorem splitBy_joinWith {separator : Char} {items : List String} (hne : items ≠ [])
    (h : ∀ item ∈ items, separator ∉ item.toList) :
    splitBy (· == separator) (joinWith (String.ofList [separator]) items).toList
      = items.map String.toList := by
  rw [splitBy_eq_splitOnP, ← List.splitOn_eq_splitOnP, toList_joinWith, String.toList_ofList]
  exact List.splitOn_intercalate separator (by simpa using h) (by simpa using hne)

theorem splitAt_eq_splitOn (separator : Char) (s : String) :
    splitAt separator s = (s.toList.splitOn separator).map String.ofList := by
  rw [splitAt, splitBy_eq_splitOnP, List.splitOn_eq_splitOnP]

/-- A text is its parts with separators between them. -/
theorem joinWith_splitAt (separator : Char) (s : String) :
    joinWith (String.ofList [separator]) (splitAt separator s) = s := by
  rw [← String.toList_inj, toList_joinWith, String.toList_ofList, splitAt_eq_splitOn, List.map_map]
  simp only [Function.comp_def, String.toList_ofList, List.map_id']
  exact List.intercalate_splitOn separator

/-- The entries of a list are its parts, trimmed, unless they are blank. -/
theorem nonblankParts_eq (separator : Char) (s : String) :
    nonblankParts separator s = ((splitAt separator s).map trim).filter (· ≠ "") := by
  rw [nonblankParts, splitAt, List.map_map, List.filter_map, List.filter_map, List.map_map]
  simp only [Function.comp_def, trim, String.toList_ofList]
  refine congrArg _ (List.filter_congr fun part _ => ?_)
  cases trimChars part <;> simp

/-- Two lists with a separator between them have the parts of both. -/
theorem splitAt_append (separator : Char) (s t : String) :
    splitAt separator (s ++ String.ofList [separator] ++ t)
      = splitAt separator s ++ splitAt separator t := by
  have hcut : (s ++ String.ofList [separator] ++ t).toList = s.toList ++ separator :: t.toList := by
    simp
  simp only [splitAt_eq_splitOn, hcut, List.splitOn_append_cons_self, List.map_append]

/-- Lists with separators between them have the entries of all, whichever separators they have of
their own. -/
theorem nonblankParts_joinWith_eq_flatMap (separator : Char) (values : List String) :
    nonblankParts separator (joinWith (String.ofList [separator]) values)
      = values.flatMap (nonblankParts separator) := by
  induction values with
  | nil => rfl
  | cons value values ih =>
    cases values with
    | nil => simp [joinWith]
    | cons next values =>
      have hjoin : joinWith (String.ofList [separator]) (value :: next :: values)
          = value ++ String.ofList [separator]
            ++ joinWith (String.ofList [separator]) (next :: values) := rfl
      rw [hjoin, nonblankParts_eq, splitAt_append, List.map_append, List.filter_append,
        ← nonblankParts_eq, ← nonblankParts_eq, ih, ← List.flatMap_cons]

/-- The entries of a list are the texts that it is made of, trimmed, unless they are blank. -/
theorem nonblankParts_joinWith {separator : Char} {items : List String}
    (h : ∀ item ∈ items, separator ∉ item.toList) :
    nonblankParts separator (joinWith (String.ofList [separator]) items)
      = (items.map trim).filter (· ≠ "") := by
  cases items with
  | nil => rfl
  | cons item items =>
    rw [nonblankParts_eq, splitAt, splitBy_joinWith (List.cons_ne_nil _ _) h, List.map_map]
    simp [Function.comp_def]

end RaftAdmin.Text
