import RaftAdmin.Proofs.Text.Numeral

/-!
# Texts that are taken apart

A list is taken apart at every separator, and its entries lose their blanks. A character that is
neither a separator nor a blank is never lost on the way, and none is put in.

## What is proved

* `splitBy_of_forall`, `not_sep_of_mem_splitBy` — separators stand between parts, never in them.
* `count_trimChars` — trimming a text takes only blanks from it.
* `count_readNat?` — what is no digit and no plus sign does not occur in a numeral.
* `nonblankParts_eq_singleton`, `notMem_of_mem_nonblankParts` — both together, for entries of lists.
* `cutFirst_eq_some_iff` — a text is cut at its first separator.
* `dropFront?_eq_some_iff`, `dropBack?_eq_some_iff` — what is taken from a text can be put around it
  again.
* `Marks.splitBy_flatMap`, `Marks.cutFirst_flatMap`, `Marks.cutLast_flatMap` — a list is cut before
  or after it is written out, as long as separators are told from the rest in writing.
-/

namespace RaftAdmin.Text

variable {c : Char} {cs : List Char} {sep : Char → Bool}

/-! ### Parts -/

theorem splitBy_eq_splitOnP (sep : Char → Bool) (cs : List Char) :
    splitBy sep cs = cs.splitOnP sep := by
  induction cs with
  | nil => rfl
  | cons c cs ih =>
    rw [splitBy, ih, List.splitOnP_cons_eq_if_modifyHead]
    cases hparts : cs.splitOnP sep with
    | nil => exact absurd hparts (List.splitOnP_ne_nil sep cs)
    | cons part parts => rfl

/-- A text without separators has one part. -/
theorem splitBy_of_forall (h : ∀ c ∈ cs, sep c = false) : splitBy sep cs = [cs] := by
  rw [splitBy_eq_splitOnP]
  exact List.splitOnP_eq_singleton h

theorem not_sep_of_mem_splitBy {part : List Char} (h : part ∈ splitBy sep cs) :
    ∀ c ∈ part, sep c = false := by
  induction cs generalizing part with
  | nil =>
    obtain rfl := List.mem_singleton.mp h
    nofun
  | cons c cs ih =>
    rw [splitBy_eq_splitOnP, List.splitOnP_cons_eq_if_modifyHead, ← splitBy_eq_splitOnP] at h
    split_ifs at h with hc
    · rcases List.mem_cons.mp h with rfl | h
      · nofun
      · exact ih h
    · -- the character is put in front of the first part, and the others stay
      cases hparts : splitBy sep cs with
      | nil =>
        rw [hparts] at h
        cases h
      | cons first parts =>
        rw [hparts] at h ih
        rcases List.mem_cons.mp h with rfl | h
        · exact List.forall_mem_cons.mpr ⟨by simpa using hc, ih List.mem_cons_self⟩
        · exact ih (List.mem_cons_of_mem first h)

/-! ### Cuts -/

theorem cutFirst_eq_none_iff : cutFirst sep cs = none ↔ ∀ c ∈ cs, sep c = false := by
  induction cs with
  | nil => simp [cutFirst]
  | cons c cs ih =>
    rw [cutFirst, List.forall_mem_cons, ← ih]
    cases sep c <;> simp

theorem cutFirst_append {before after : List Char} (hc : sep c = true)
    (hbefore : ∀ d ∈ before, sep d = false) :
    cutFirst sep (before ++ c :: after) = some (before, after) := by
  induction before with
  | nil => rw [List.nil_append, cutFirst, if_pos hc]
  | cons b before ih =>
    obtain ⟨hb, hbefore⟩ := List.forall_mem_cons.mp hbefore
    rw [List.cons_append, cutFirst, hb, if_neg Bool.false_ne_true, ih hbefore]
    rfl

/-- A text is cut at its first separator. -/
theorem cutFirst_eq_some_iff {before after : List Char} :
    cutFirst sep cs = some (before, after) ↔ ∃ c, sep c = true ∧ cs = before ++ c :: after ∧
      ∀ d ∈ before, sep d = false := by
  constructor
  · intro h
    induction cs generalizing before with
    | nil => cases h
    | cons d cs ih =>
      rw [cutFirst] at h
      cases hd : sep d with
      | true =>
        rw [if_pos hd] at h
        obtain ⟨rfl, rfl⟩ := Prod.mk.inj (Option.some.inj h)
        exact ⟨d, hd, rfl, nofun⟩
      | false =>
        rw [hd, if_neg Bool.false_ne_true] at h
        obtain ⟨⟨front, rest⟩, hcut, hparts⟩ := Option.map_eq_some_iff.mp h
        obtain ⟨rfl, rfl⟩ := Prod.mk.inj hparts
        obtain ⟨c, hc, rfl, hfront⟩ := ih hcut
        exact ⟨c, hc, rfl, List.forall_mem_cons.mpr ⟨hd, hfront⟩⟩
  · rintro ⟨c, hc, rfl, hbefore⟩
    exact cutFirst_append hc hbefore

theorem dropFront?_append (front rest : List Char) :
    dropFront? front (front ++ rest) = some rest := by
  induction front with
  | nil => rfl
  | cons c front ih =>
    rw [List.cons_append, dropFront?, if_pos (beq_self_eq_true c)]
    exact ih

theorem dropBack?_append (rest back : List Char) : dropBack? back (rest ++ back) = some rest := by
  rw [dropBack?, List.reverse_append, dropFront?_append, Option.map_some, List.reverse_reverse]

theorem dropFront?_eq_some_iff {front rest : List Char} :
    dropFront? front cs = some rest ↔ cs = front ++ rest := by
  constructor
  · intro h
    induction front generalizing cs with
    | nil => exact Option.some.inj h
    | cons f front ih =>
      cases cs with
      | nil => cases h
      | cons c cs =>
        rw [dropFront?] at h
        obtain ⟨hc, hrest⟩ := Option.ite_none_right_eq_some.mp h
        rw [List.cons_append, ih hrest, beq_iff_eq.mp hc]
  · rintro rfl
    exact dropFront?_append front rest

theorem dropBack?_eq_some_iff {back rest : List Char} :
    dropBack? back cs = some rest ↔ cs = rest ++ back := by
  constructor
  · intro h
    obtain ⟨front, hfront, rfl⟩ := Option.map_eq_some_iff.mp h
    rw [← List.reverse_inj, dropFront?_eq_some_iff.mp hfront]
    simp
  · rintro rfl
    exact dropBack?_append rest back

/-! ### Lists that are written out -/

section

variable {α β : Type} {p : α → Bool} {q : β → Bool} {write : α → List β} {xs : List α}
  {ys zs : List β}

theorem splitBy_ne_nil (q : β → Bool) (ys : List β) : splitBy q ys ≠ [] := by
  cases ys with
  | nil => exact List.cons_ne_nil _ _
  | cons y ys =>
    rw [splitBy]
    split
    · exact List.cons_ne_nil _ _
    · split <;> exact List.cons_ne_nil _ _

/-- What holds no separator belongs to the first part. -/
theorem splitBy_append (h : ∀ y ∈ ys, q y = false) :
    splitBy q (ys ++ zs) = (splitBy q zs).modifyHead (ys ++ ·) := by
  obtain ⟨part, parts, hparts⟩ := List.exists_cons_of_ne_nil (splitBy_ne_nil q zs)
  induction ys with
  | nil => simp [hparts]
  | cons y ys ih =>
    obtain ⟨hy, hys⟩ := List.forall_mem_cons.mp h
    rw [List.cons_append, splitBy, hy, ih hys, hparts]
    rfl

theorem cutFirst_append_of_forall (h : ∀ y ∈ ys, q y = false) :
    cutFirst q (ys ++ zs) = (cutFirst q zs).map (Prod.map (ys ++ ·) id) := by
  induction ys with
  | nil =>
    rw [List.nil_append]
    cases cutFirst q zs <;> rfl
  | cons y ys ih =>
    obtain ⟨hy, hys⟩ := List.forall_mem_cons.mp h
    rw [List.cons_append, cutFirst, hy, ih hys]
    cases cutFirst q zs <;> rfl

theorem cutLast_append_of_forall (h : ∀ y ∈ ys, q y = false) :
    cutLast q (ys ++ zs) = (cutLast q zs).map (Prod.map (ys ++ ·) id) := by
  induction ys with
  | nil =>
    rw [List.nil_append]
    cases cutLast q zs <;> rfl
  | cons y ys ih =>
    obtain ⟨hy, hys⟩ := List.forall_mem_cons.mp h
    rw [List.cons_append, cutLast, ih hys]
    cases cutLast q zs with
    | none => simp [hy]
    | some cut => rfl

/-- Elements are written such that the marks, and only they, are written as one mark. -/
structure Marks (p : α → Bool) (q : β → Bool) (write : α → List β) : Prop where
  /-- A mark. -/
  mark : ∀ a, p a = true → ∃ b, write a = [b] ∧ q b = true
  /-- Anything else. -/
  plain : ∀ a, p a = false → ∀ b ∈ write a, q b = false

namespace Marks

theorem splitBy_flatMap (h : Marks p q write) (xs : List α) :
    splitBy q (xs.flatMap write) = (splitBy p xs).map (List.flatMap write) := by
  induction xs with
  | nil => rfl
  | cons x xs ih =>
    rw [List.flatMap_cons, splitBy]
    cases hx : p x with
    | true =>
      obtain ⟨b, hb, hq⟩ := h.mark x hx
      rw [hb, List.singleton_append, splitBy, hq, ih]
      rfl
    | false =>
      obtain ⟨part, parts, hparts⟩ := List.exists_cons_of_ne_nil (splitBy_ne_nil p xs)
      rw [splitBy_append (h.plain x hx), ih, hparts]
      rfl

theorem cutFirst_flatMap (h : Marks p q write) (xs : List α) :
    cutFirst q (xs.flatMap write)
      = (cutFirst p xs).map (Prod.map (List.flatMap write) (List.flatMap write)) := by
  induction xs with
  | nil => rfl
  | cons x xs ih =>
    rw [List.flatMap_cons, cutFirst]
    cases hx : p x with
    | true =>
      obtain ⟨b, hb, hq⟩ := h.mark x hx
      rw [hb, List.singleton_append, cutFirst, hq]
      rfl
    | false =>
      rw [cutFirst_append_of_forall (h.plain x hx), ih]
      cases cutFirst p xs <;> rfl

theorem cutLast_flatMap (h : Marks p q write) (xs : List α) :
    cutLast q (xs.flatMap write)
      = (cutLast p xs).map (Prod.map (List.flatMap write) (List.flatMap write)) := by
  induction xs with
  | nil => rfl
  | cons x xs ih =>
    rw [List.flatMap_cons, cutLast]
    cases hx : p x with
    | true =>
      obtain ⟨b, hb, hq⟩ := h.mark x hx
      rw [hb, List.singleton_append, cutLast, hq, ih]
      cases cutLast p xs with
      | none => rfl
      | some cut => simp [hb]
    | false =>
      rw [cutLast_append_of_forall (h.plain x hx), ih]
      cases cutLast p xs <;> rfl

end Marks

end

/-! ### Blanks -/

/-- Trimming a text takes only blanks from it. -/
theorem count_trimChars (hc : isBlank c = false) (cs : List Char) :
    (trimChars cs).count c = cs.count c := by
  have hdrop (cs : List Char) : (cs.dropWhile isBlank).count c = cs.count c := by
    have hblank : c ∉ cs.takeWhile isBlank := fun hmem => by
      simp [List.mem_takeWhile_imp hmem] at hc
    conv_rhs => rw [← List.takeWhile_append_dropWhile (p := isBlank) (l := cs), List.count_append,
      List.count_eq_zero.mpr hblank, Nat.zero_add]
  rw [trimChars, trimRight, trimLeft, List.count_reverse, hdrop, List.count_reverse, hdrop]

theorem mem_trimChars (hc : isBlank c = false) : c ∈ trimChars cs ↔ c ∈ cs := by
  rw [← List.count_pos_iff, count_trimChars hc, List.count_pos_iff]

/-- The entries of a list hold no separator. -/
theorem notMem_of_mem_nonblankParts {separator : Char} {s part : String}
    (hblank : isBlank separator = false) (h : part ∈ nonblankParts separator s) :
    separator ∉ part.toList := by
  simp only [nonblankParts, List.mem_map, List.mem_filter] at h
  obtain ⟨-, ⟨⟨part, hpart, rfl⟩, -⟩, rfl⟩ := h
  rw [String.toList_ofList, mem_trimChars hblank]
  exact fun hmem => by simpa using not_sep_of_mem_splitBy hpart separator hmem

/-- A trimmed text without separators is the only entry of the list that it is. -/
theorem nonblankParts_eq_singleton {separator : Char} {s : String} (hsep : separator ∉ s.toList)
    (htrim : trimChars s.toList = s.toList) (hne : s.toList ≠ []) :
    nonblankParts separator s = [s] := by
  have hsplit : splitBy (· == separator) s.toList = [s.toList] :=
    splitBy_of_forall fun c hc => beq_eq_false_iff_ne.mpr fun heq => hsep (heq ▸ hc)
  have hnonblank : [s.toList].filter (!·.isEmpty) = [s.toList] :=
    List.filter_eq_self.mpr (List.forall_mem_singleton.mpr (by simpa using hne))
  rw [nonblankParts, hsplit, List.map_singleton, htrim, hnonblank, List.map_singleton,
    String.ofList_toList]

/-! ### Numerals -/

theorem digitValue?_of_valueFrom? {base value n : Nat} (h : valueFrom? base value cs = some n) :
    ∀ c ∈ cs, ∃ d, digitValue? c = some d := by
  induction cs generalizing value with
  | nil => nofun
  | cons c cs ih =>
    rw [valueFrom?] at h
    cases hdigit : digitValue? c with
    | none => simp [hdigit] at h
    | some d =>
      simp only [hdigit] at h
      obtain ⟨-, hrest⟩ := Option.ite_none_right_eq_some.mp h
      exact List.forall_mem_cons.mpr ⟨⟨d, hdigit⟩, ih hrest⟩

/-- What is no digit and no plus sign does not occur in a numeral. -/
theorem notMem_of_readNat? {bound n : Nat} (h : readNat? bound cs = some n)
    (hdigit : digitValue? c = none) (hplus : c ≠ '+') : c ∉ cs := by
  have hvalue : value? 10 (dropPlus cs) = some n := (Option.filter_eq_some_iff.mp h).1
  have hdigits : ∀ c ∈ dropPlus cs, ∃ d, digitValue? c = some d :=
    digitValue?_of_valueFrom? (Option.ite_none_left_eq_some.mp hvalue).2
  have hdrop : c ∉ dropPlus cs := fun hmem => by
    obtain ⟨d, hd⟩ := hdigits c hmem
    simp [hdigit] at hd
  unfold dropPlus at hdrop
  split at hdrop
  · exact fun hmem => (List.mem_cons.mp hmem).elim hplus hdrop
  · exact hdrop

end RaftAdmin.Text
