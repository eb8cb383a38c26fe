import RaftAdmin.Json.Reader
import RaftAdmin.Json.Writer
import RaftAdmin.Proofs.Text.Numeral

/-!
# JSON that is written and read again

The writer puts no blanks between tokens and escapes only what must be; the reader takes much more.
What the writer makes of a value of texts and natural numbers is read as this value.

## The model

A value may have a number with a fraction, whose tail the reader keeps as it stands, or a literal
that denotes no text, which is written empty. Neither occurs in what the program sends, so they are
left out of `Faithful`.

Fuel is counted in characters: a reader with as much fuel as the text of a value is long reads this
value, whatever follows it, as long as this does not continue a number.

## What is proved

* `readLiteral_writeLiteral` — a text is read again from its literal.
* `readNumber_digits` — a natural number is read again from its numeral.
* `readItems_writeItems`, `readMembers_writeMembers` — a container is read again if its parts are.
* `Faithful.reads` — the induction over the value.
* **`read_render`** — a faithful value is read again from its text.
-/

namespace RaftAdmin.Json

variable {c : Char} {cs rest : List Char} {fuel : Nat}

/-! ### Literals -/

/-- A piece stands for this character, whatever pieces follow it. -/
def Piece.Denotes (p : Piece) (c : Char) : Prop :=
  ∀ ps, joinPieces (p :: ps) = (joinPieces ps).map (c :: ·)

theorem Piece.Denotes.char (c : Char) : (Piece.char c).Denotes c := fun _ => rfl

/-- A unit that is half of no pair stands for itself. -/
theorem Piece.Denotes.unit (h : c.toNat < 0x20) : (Piece.unit c.toNat).Denotes c := by
  have hhigh : isHighHalf c.toNat = false := by
    simp only [isHighHalf, Bool.and_eq_false_iff, decide_eq_false_iff_not]
    omega
  have hlow : isLowHalf c.toNat = false := by
    simp only [isLowHalf, Bool.and_eq_false_iff, decide_eq_false_iff_not]
    omega
  have hself : Char.ofNat c.toNat = c := Char.ofNat_toNat c
  intro ps
  match ps with
  | [] => simp [joinPieces, hhigh, hlow, hself]
  | .char d :: ps => simp [joinPieces, hhigh, hlow, hself]
  | .unit m :: ps => simp [joinPieces, hhigh, hlow, hself]

/-- The two digits of a control character are read as its number. -/
theorem valueFrom?_control : ∀ n : Fin 0x20,
    Text.valueFrom? 16 0 ['0', '0', hexChar (n / 16), hexChar (n % 16)] = some n.val := by
  decide

theorem readPieces_short {e : Char} (he : e ≠ 'u') (h : shortEscape? e = some c) :
    ∃ p : Piece, p.Denotes c ∧
      ∀ cs ps, readPieces (['\\', e] ++ cs) ps = readPieces cs (p :: ps) := by
  refine ⟨.char c, .char c, fun cs ps => ?_⟩
  simp [readPieces, he, h]

/-- However a character is written, one piece that denotes it is read. -/
theorem exists_piece (c : Char) : ∃ p : Piece, p.Denotes c ∧
    ∀ cs ps, readPieces (escape c ++ cs) ps = readPieces cs (p :: ps) := by
  unfold escape
  split_ifs with hquote hslash hn hr ht hb hf hcontrol
  · exact readPieces_short (by decide) (by rw [hquote]; rfl)
  · exact readPieces_short (by decide) (by rw [hslash]; rfl)
  · exact readPieces_short (by decide) (by rw [hn]; rfl)
  · exact readPieces_short (by decide) (by rw [hr]; rfl)
  · exact readPieces_short (by decide) (by rw [ht]; rfl)
  · exact readPieces_short (by decide) (by rw [← Char.ofNat_toNat c, hb]; rfl)
  · exact readPieces_short (by decide) (by rw [← Char.ofNat_toNat c, hf]; rfl)
  · refine ⟨.unit c.toNat, .unit hcontrol, fun cs ps => ?_⟩
    have hvalue := valueFrom?_control ⟨c.toNat, hcontrol⟩
    dsimp only at hvalue
    simp only [List.cons_append, List.nil_append, readPieces, hvalue]
  · refine ⟨.char c, .char c, fun cs ps => ?_⟩
    rw [List.singleton_append]
    simp [readPieces, hslash, hcontrol]

theorem readPieces_flatMap (s : List Char) : ∃ ps, joinPieces ps = some s ∧
    ∀ rest before, readPieces (s.flatMap escape ++ '"' :: rest) before
      = some (ps.reverse ++ before, rest) := by
  induction s with
  | nil => exact ⟨[], rfl, fun _ _ => rfl⟩
  | cons c s ih =>
    obtain ⟨p, hp, hread⟩ := exists_piece c
    obtain ⟨ps, hps, hreads⟩ := ih
    refine ⟨p :: ps, by rw [hp, hps]; rfl, fun rest before => ?_⟩
    rw [List.flatMap_cons, List.append_assoc, hread, hreads, List.reverse_cons, List.append_assoc]
    rfl

/-- A text is read again from its literal. -/
theorem readLiteral_writeLiteral (s : String) (rest : List Char) :
    readLiteral (s.toList.flatMap escape ++ '"' :: rest) = some (some s, rest) := by
  obtain ⟨ps, hps, hreads⟩ := readPieces_flatMap s.toList
  rw [readLiteral, hreads]
  simp [hps]

/-! ### Numbers -/

/-- What may follow a value: nothing, or a character that ends it. -/
def Closing (rest : List Char) : Prop :=
  ∀ c, rest.head? = some c → c = ',' ∨ c = ']' ∨ c = '\x7d'

theorem Closing.nil : Closing [] := by simp [Closing]

theorem Closing.cons (h : c = ',' ∨ c = ']' ∨ c = '\x7d') : Closing (c :: cs) := by
  rintro d hd
  obtain rfl := Option.some.inj hd
  exact h

/-- What closes a value continues no number. -/
theorem Closing.ends (h : Closing rest) : rest.takeWhile Text.isDigit = [] ∧
    rest.dropWhile Text.isDigit = rest ∧ readFraction rest = some ([], rest) ∧
      readExponent rest = some ([], rest) := by
  cases rest with
  | nil => exact ⟨rfl, rfl, rfl, rfl⟩
  | cons c rest => rcases h c rfl with rfl | rfl | rfl <;> exact ⟨rfl, rfl, rfl, rfl⟩

/-- A natural number is read again from its numeral. -/
theorem readUnsigned_digits (n : Nat) (h : Closing rest) :
    readUnsigned false (Text.digits n ++ rest) = some (.ofNat n, rest) := by
  obtain ⟨htake, hdrop, hfraction, hexponent⟩ := h.ends
  have hdigits : ∀ c ∈ Text.digits n, Text.isDigit c = true := fun _ => Text.isDigit_of_mem_digits
  have hmore : (Text.digits n ++ rest).takeWhile Text.isDigit = Text.digits n := by
    rw [List.takeWhile_append_of_pos hdigits, htake, List.append_nil]
  have hrest : (Text.digits n ++ rest).dropWhile Text.isDigit = rest := by
    rw [List.dropWhile_append_of_pos hdigits, hdrop]
  have hzero : ¬ ((Text.digits n).head? = some '0' ∧ (Text.digits n).length ≠ 1) := by
    rintro ⟨hhead, hlength⟩
    obtain rfl := Text.eq_zero_of_head?_digits hhead
    exact hlength rfl
  simp only [readUnsigned, hmore, hrest, Text.value?_digits, if_neg hzero, hfraction, hexponent]
  rfl

theorem skipSpace_cons (h : isSpace c = false) : skipSpace (c :: cs) = c :: cs :=
  List.dropWhile_cons_of_neg (by simp [h])

theorem isSpace_of_isDigit (h : Text.isDigit c = true) : isSpace c = false := by
  have hne : ∀ d, Text.isDigit d = false → c ≠ d := fun d hd heq => by simp [heq, hd] at h
  simp [isSpace, hne ' ' (by decide), hne '\t' (by decide), hne '\n' (by decide),
    hne '\r' (by decide)]

/-- A digit starts no value but a number. -/
theorem readValue_of_isDigit (h : Text.isDigit c = true) :
    readValue (fuel + 1) (c :: cs)
      = (readUnsigned false (c :: cs)).map fun (n, rest) => (.number n, rest) := by
  have hne : ∀ d, Text.isDigit d = false → c ≠ d := fun d hd heq => by simp [heq, hd] at h
  have hword : word? (c :: cs) = none := by
    unfold word?
    split
    · next heq => exact absurd (List.cons.inj heq).1 (hne 'n' (by decide))
    · next heq => exact absurd (List.cons.inj heq).1 (hne 't' (by decide))
    · next heq => exact absurd (List.cons.inj heq).1 (hne 'f' (by decide))
    · rfl
  have hnumber : readNumber (c :: cs) = readUnsigned false (c :: cs) := by
    unfold readNumber
    split
    · next heq => exact absurd (List.cons.inj heq).1 (hne '-' (by decide))
    · rfl
  rw [readValue, skipSpace_cons (isSpace_of_isDigit h)]
  split
  · next heq => exact absurd (List.cons.inj heq).1 (hne '"' (by decide))
  · next heq => exact absurd (List.cons.inj heq).1 (hne '[' (by decide))
  · next heq => exact absurd (List.cons.inj heq).1 (hne '\x7b' (by decide))
  · rw [hword, hnumber]

/-! ### Values -/

/-- The values that consist of texts and natural numbers. -/
inductive Faithful : Value → Prop where
  /-- The literal. -/
  | null : Faithful .null
  /-- A truth value. -/
  | bool (b : Bool) : Faithful (.bool b)
  /-- A natural number. -/
  | nat (n : Nat) : Faithful (.ofNat n)
  /-- A text. -/
  | text (s : String) : Faithful (.ofString s)
  /-- An array of such values. -/
  | array {vs : List Value} (items : ∀ v ∈ vs, Faithful v) : Faithful (.array vs)
  /-- An object of such values. -/
  | object {ms : List (String × Value)} (members : ∀ m ∈ ms, Faithful m.2) :
    Faithful (.ofMembers ms)

/-- A value is read from its text with as much fuel as this is long. -/
def Reads (v : Value) : Prop := ∀ fuel rest, (write v).length ≤ fuel → Closing rest →
  readValue fuel (write v ++ rest) = some (v, rest)

/-- The text starts with a character that is neither a blank nor a closing bracket. -/
theorem Faithful.opens {v : Value} (h : Faithful v) :
    ∃ c cs, write v = c :: cs ∧ isSpace c = false ∧ c ≠ ']' := by
  cases h with
  | null => exact ⟨_, _, rfl, by decide, by decide⟩
  | bool b => cases b <;> exact ⟨_, _, rfl, by decide, by decide⟩
  | nat n =>
    obtain ⟨c, cs, hdigits⟩ := List.exists_cons_of_ne_nil (Text.digits_ne_nil (n := n))
    have hc : Text.isDigit c = true := Text.isDigit_of_mem_digits (n := n) (by simp [hdigits])
    refine ⟨c, cs, ?_, isSpace_of_isDigit hc, ?_⟩
    · simp [Value.ofNat, Number.ofNat, write, writeNumber, hdigits]
    · rintro rfl
      exact absurd hc (by decide)
  | text s => exact ⟨_, _, rfl, by decide, by decide⟩
  | array => exact ⟨_, _, rfl, by decide, by decide⟩
  | object => exact ⟨_, _, rfl, by decide, by decide⟩

theorem Faithful.opens_writeItems {v : Value} (h : Faithful v) (vs : List Value) :
    ∃ c cs, writeItems (v :: vs) = c :: cs ∧ isSpace c = false ∧ c ≠ ']' := by
  obtain ⟨c, cs, hwrite, hspace, hne⟩ := h.opens
  cases vs with
  | nil => exact ⟨c, cs ++ [']'], by rw [writeItems, hwrite, List.cons_append], hspace, hne⟩
  | cons w ws =>
    exact ⟨c, cs ++ ',' :: writeItems (w :: ws), by rw [writeItems, hwrite, List.cons_append],
      hspace, hne⟩

/-! ### Containers -/

theorem skipSpace_comma : skipSpace (',' :: cs) = ',' :: cs := skipSpace_cons (by decide)

section Array

variable {v : Value} {vs before : List Value}

theorem readItems_more (h : Reads v) (hfuel : (write v).length ≤ fuel) :
    readItems (fuel + 1) (write v ++ ',' :: rest) before = readItems fuel rest (v :: before) := by
  simp only [readItems, h fuel _ hfuel (.cons (.inl rfl)), skipSpace_comma]

theorem readItems_last (h : Reads v) (hfuel : (write v).length ≤ fuel) :
    readItems (fuel + 1) (write v ++ ']' :: rest) before
      = some (.array (v :: before).reverse, rest) := by
  have hclose : skipSpace (']' :: rest) = ']' :: rest := skipSpace_cons (by decide)
  simp only [readItems, h fuel _ hfuel (.cons (.inr (.inl rfl))), hclose]

/-- The items of an array are read again from their text if each of them is. -/
theorem readItems_writeItems (h : ∀ w ∈ v :: vs, Reads w)
    (hfuel : (writeItems (v :: vs)).length ≤ fuel) :
    readItems fuel (writeItems (v :: vs) ++ rest) before
      = some (.array (before.reverse ++ v :: vs), rest) := by
  induction vs generalizing v before fuel with
  | nil =>
    have hlength : (writeItems [v]).length = (write v).length + 1 := by simp [writeItems]
    obtain ⟨fuel, rfl⟩ := Nat.exists_eq_add_of_le' (show 1 ≤ fuel by omega)
    have htext : writeItems [v] ++ rest = write v ++ ']' :: rest := by simp [writeItems]
    rw [htext, readItems_last (h v List.mem_cons_self) (by omega), List.reverse_cons]
  | cons w ws ih =>
    have hlength : (writeItems (v :: w :: ws)).length
        = (write v).length + ((writeItems (w :: ws)).length + 1) := by simp [writeItems]
    obtain ⟨fuel, rfl⟩ := Nat.exists_eq_add_of_le' (show 1 ≤ fuel by omega)
    have htext : writeItems (v :: w :: ws) ++ rest
        = write v ++ ',' :: (writeItems (w :: ws) ++ rest) := by simp [writeItems]
    rw [htext, readItems_more (h v List.mem_cons_self) (by omega),
      ih (fun x hx => h x (List.mem_cons_of_mem _ hx)) (by omega), List.reverse_cons,
      List.append_assoc, List.singleton_append]

end Array

section Object

variable {name : String} {v : Value} {ms : List (String × Value)} {before : List (Literal × Value)}

theorem skipSpace_writeLiteral (t : Literal) :
    skipSpace (writeLiteral t ++ cs) = '"' :: ((t.getD "").toList.flatMap escape ++ '"' :: cs) := by
  simp [writeLiteral, skipSpace_cons (show isSpace '"' = false by decide)]

theorem skipSpace_colon : skipSpace (':' :: cs) = ':' :: cs := skipSpace_cons (by decide)

theorem readMembers_more (h : Reads v) (hfuel : (write v).length ≤ fuel) :
    readMembers (fuel + 1) (writeLiteral (some name) ++ ':' :: (write v ++ ',' :: rest)) before
      = readMembers fuel rest ((some name, v) :: before) := by
  simp only [readMembers, skipSpace_writeLiteral, Option.getD_some, readLiteral_writeLiteral,
    skipSpace_colon, h fuel _ hfuel (.cons (.inl rfl)), skipSpace_comma]

theorem readMembers_last (h : Reads v) (hfuel : (write v).length ≤ fuel) :
    readMembers (fuel + 1) (writeLiteral (some name) ++ ':' :: (write v ++ '\x7d' :: rest)) before
      = some (.object ((some name, v) :: before).reverse, rest) := by
  have hclose : skipSpace ('\x7d' :: rest) = '\x7d' :: rest := skipSpace_cons (by decide)
  simp only [readMembers, skipSpace_writeLiteral, Option.getD_some, readLiteral_writeLiteral,
    skipSpace_colon, h fuel _ hfuel (.cons (.inr (.inr rfl))), hclose]

/-- The members of an object, as the reader gives them. -/
def named (ms : List (String × Value)) : List (Literal × Value) :=
  ms.map fun (name, v) => (some name, v)

/-- The members of an object are read again from their text if their values are. -/
theorem readMembers_writeMembers (hv : Reads v) (h : ∀ m ∈ ms, Reads m.2)
    (hfuel : (writeMembers (named ((name, v) :: ms))).length ≤ fuel) :
    readMembers fuel (writeMembers (named ((name, v) :: ms)) ++ rest) before
      = some (.object (before.reverse ++ named ((name, v) :: ms)), rest) := by
  induction ms generalizing name v before fuel with
  | nil =>
    have hwrite : writeMembers (named [(name, v)])
        = writeLiteral (some name) ++ ':' :: (write v ++ ['\x7d']) := rfl
    have hlength : (writeMembers (named [(name, v)])).length
        = (writeLiteral (some name)).length + ((write v).length + 2) := by simp [hwrite]
    obtain ⟨fuel, rfl⟩ := Nat.exists_eq_add_of_le' (show 1 ≤ fuel by omega)
    have htext : writeMembers (named [(name, v)]) ++ rest
        = writeLiteral (some name) ++ ':' :: (write v ++ '\x7d' :: rest) := by simp [hwrite]
    rw [htext, readMembers_last hv (by omega), List.reverse_cons]
    rfl
  | cons m ms ih =>
    obtain ⟨next, w⟩ := m
    have hwrite : writeMembers (named ((name, v) :: (next, w) :: ms)) = writeLiteral (some name) ++
        ':' :: (write v ++ ',' :: writeMembers (named ((next, w) :: ms))) := rfl
    have hlength : (writeMembers (named ((name, v) :: (next, w) :: ms))).length
        = (writeLiteral (some name)).length + ((write v).length
          + ((writeMembers (named ((next, w) :: ms))).length + 2)) := by
      simp [hwrite]
      omega
    obtain ⟨fuel, rfl⟩ := Nat.exists_eq_add_of_le' (show 1 ≤ fuel by omega)
    have htext : writeMembers (named ((name, v) :: (next, w) :: ms)) ++ rest = writeLiteral (some name) ++
        ':' :: (write v ++ ',' :: (writeMembers (named ((next, w) :: ms)) ++ rest)) := by simp [hwrite]
    have hnext : Reads w := h (next, w) List.mem_cons_self
    rw [htext, readMembers_more hv (by omega), ih hnext (fun x hx => h x (List.mem_cons_of_mem _ hx))
      (by omega), List.reverse_cons, List.append_assoc]
    rfl

end Object

/-! ### Whole values -/

theorem Faithful.reads_of_step {v : Value} (h : Faithful v)
    (step : ∀ fuel rest, (write v).length ≤ fuel + 1 → Closing rest →
      readValue (fuel + 1) (write v ++ rest) = some (v, rest)) : Reads v := by
  intro fuel rest hfuel hrest
  obtain ⟨c, cs, hwrite, -, -⟩ := h.opens
  have hpos : 1 ≤ fuel := by
    rw [hwrite, List.length_cons] at hfuel
    omega
  obtain ⟨fuel, rfl⟩ := Nat.exists_eq_add_of_le' hpos
  exact step fuel rest hfuel hrest

theorem Faithful.reads {v : Value} (h : Faithful v) : Reads v := by
  induction h with
  | null => exact Faithful.null.reads_of_step fun fuel rest _ _ => rfl
  | bool b => exact (Faithful.bool b).reads_of_step fun fuel rest _ _ => by cases b <;> rfl
  | nat n =>
    refine (Faithful.nat n).reads_of_step fun fuel rest _ hrest => ?_
    have hwrite : write (.ofNat n) = Text.digits n := by
      simp [Value.ofNat, Number.ofNat, write, writeNumber]
    obtain ⟨c, cs, hdigits⟩ := List.exists_cons_of_ne_nil (Text.digits_ne_nil (n := n))
    have hc : Text.isDigit c = true := Text.isDigit_of_mem_digits (n := n) (by simp [hdigits])
    have hread := readUnsigned_digits n hrest
    rw [hdigits, List.cons_append] at hread
    rw [hwrite, hdigits, List.cons_append, readValue_of_isDigit hc, hread]
    rfl
  | text s =>
    refine (Faithful.text s).reads_of_step fun fuel rest _ _ => ?_
    have hwrite : write (.ofString s) = writeLiteral (some s) := by rw [Value.ofString, write]
    rw [hwrite, readValue, skipSpace_writeLiteral, Option.getD_some]
    simp only [readLiteral_writeLiteral]
    rfl
  | @array vs items ih =>
    refine (Faithful.array items).reads_of_step fun fuel rest hfuel _ => ?_
    cases vs with
    | nil => rfl
    | cons v vs =>
      have hwrite : write (.array (v :: vs)) = '[' :: writeItems (v :: vs) := by rw [write]
      rw [hwrite, List.length_cons, Nat.add_le_add_iff_right] at hfuel
      have hread : readItems fuel (writeItems (v :: vs) ++ rest) []
          = some (.array (v :: vs), rest) := readItems_writeItems ih hfuel
      obtain ⟨c, cs, hopen, hspace, hne⟩ := (items v List.mem_cons_self).opens_writeItems vs
      have hbracket : skipSpace ('[' :: (c :: cs ++ rest)) = '[' :: (c :: cs ++ rest) :=
        skipSpace_cons (by decide)
      rw [hopen, List.cons_append] at hread
      rw [hwrite, hopen, List.cons_append, readValue, hbracket]
      simp only [List.cons_append, skipSpace_cons hspace]
      split
      · next heq => exact absurd (List.cons.inj heq).1 hne
      · exact hread
  | @object ms members ih =>
    refine (Faithful.object members).reads_of_step fun fuel rest hfuel _ => ?_
    cases ms with
    | nil => rfl
    | cons m ms =>
      obtain ⟨name, v⟩ := m
      have hwrite : write (.ofMembers ((name, v) :: ms))
          = '\x7b' :: writeMembers (named ((name, v) :: ms)) := by
        rw [Value.ofMembers, write]
        rfl
      rw [hwrite, List.length_cons, Nat.add_le_add_iff_right] at hfuel
      have hread : readMembers fuel (writeMembers (named ((name, v) :: ms)) ++ rest) []
          = some (.ofMembers ((name, v) :: ms), rest) :=
        readMembers_writeMembers (ih (name, v) List.mem_cons_self)
          (fun m hm => ih m (List.mem_cons_of_mem _ hm)) hfuel
      obtain ⟨cs, hopen⟩ : ∃ cs, writeMembers (named ((name, v) :: ms)) = '"' :: cs := by
        cases ms <;> exact ⟨_, rfl⟩
      have hbrace : skipSpace ('\x7b' :: ('"' :: cs ++ rest)) = '\x7b' :: ('"' :: cs ++ rest) :=
        skipSpace_cons (by decide)
      have hquote : skipSpace ('"' :: (cs ++ rest)) = '"' :: (cs ++ rest) :=
        skipSpace_cons (by decide)
      rw [hopen, List.cons_append] at hread
      rw [hwrite, hopen, List.cons_append, readValue, hbrace]
      simp only [List.cons_append, hquote]
      exact hread

/-- **A faithful value is read again from its text.** -/
theorem read_render {v : Value} (h : Faithful v) : read (render v) = some v := by
  have hread := h.reads ((write v).length + 1) [] (by omega) .nil
  rw [List.append_nil] at hread
  rw [read, render, String.toList_ofList, readChars, hread]
  rfl

end RaftAdmin.Json
