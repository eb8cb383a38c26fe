import Mathlib.Data.List.Forall2
import RaftAdmin.Proofs.Text.Lines
import RaftAdmin.Proofs.Text.Spelling
import RaftAdmin.Site.Properties

/-!
# The entries of a properties file

A properties file is read line by line. Each line is blank or a comment, or it has an entry, or it
is malformed, and the first malformed line is the error. What was read once is in a form that can be
written and read again.

## The model

`Idle`, `Malformed` and `Holds` say of a whole line, blanks included, what it is. `Canonical` says
which entries can be written as `key=value` lines: neither part needs trimming or holds a line feed,
and the key is not empty, has no separator and does not look like a comment.

## What is proved

* `line_cases` — a line is idle or malformed, or holds one entry.
* `readLines_eq_error_iff`, `readLines_eq_ok_iff` — what reading lines gives.
* `canonical_of_holds`, `read_write` — entries of lines are canonical, and canonical entries are
  read again.
* **`read_line_by_line`** — when reading a file fails, and with which line; the entries it gives
  otherwise; and that these are read again from the lines that they are written in.
-/

namespace RaftAdmin.Properties

variable {line : String} {lines : List String} {e : String × String}
  {es : List (String × String)} {cs : List Char} {n m : Nat}

/-! ### Lines -/

/-- The line is blank or a comment. -/
def Idle (line : String) : Prop := isComment (Text.trimChars line.toList) = true

instance : DecidablePred Idle := fun _ => inferInstanceAs (Decidable (_ = true))

/-- The line is neither blank nor a comment, and there is no separator in it with a key before. -/
def Malformed (line : String) : Prop :=
  ¬ Idle line ∧ ((∀ c ∈ line.toList, isSeparator c = false) ∨
    ∃ before sep after, line.toList = before ++ sep :: after ∧ isSeparator sep = true ∧
      ∀ c ∈ before, Text.isBlank c = true)

/-- The line is neither blank nor a comment, and its first separator stands between key and value.
The blanks around each of them do not belong to it. -/
def Holds (line : String) (e : String × String) : Prop :=
  ¬ Idle line ∧ ∃ before sep after, line.toList = before ++ sep :: after ∧
    isSeparator sep = true ∧ (∀ c ∈ before, isSeparator c = false) ∧ e.1 ≠ "" ∧
      e = (String.ofList (Text.trimChars before), String.ofList (Text.trimChars after))

theorem isSeparator_eq_true_iff {c : Char} : isSeparator c = true ↔ c = '=' ∨ c = ':' := by
  simp [isSeparator]

theorem isSeparator_of_isBlank {c : Char} (h : Text.isBlank c = true) : isSeparator c = false := by
  by_contra hc
  rw [Bool.not_eq_false, isSeparator_eq_true_iff] at hc
  rcases hc with rfl | rfl <;> exact absurd h (by decide)

theorem readEntry_eq_some_iff :
    readEntry cs = some e ↔ ∃ before sep after, cs = before ++ sep :: after ∧
      isSeparator sep = true ∧ (∀ c ∈ before, isSeparator c = false) ∧ e.1 ≠ "" ∧
        e = (String.ofList (Text.trimChars before), String.ofList (Text.trimChars after)) := by
  unfold readEntry
  constructor
  · intro h
    cases hcut : Text.cutFirst isSeparator cs with
    | none => simp [hcut] at h
    | some parts =>
      obtain ⟨before, after⟩ := parts
      obtain ⟨sep, hsep, hcs, hbefore⟩ := Text.cutFirst_eq_some_iff.mp hcut
      simp only [hcut] at h
      obtain ⟨hkey, he⟩ := Option.ite_none_left_eq_some.mp h
      obtain rfl := Option.some.inj he
      exact ⟨before, sep, after, hcs, hsep, hbefore, by simpa using hkey, rfl⟩
  · rintro ⟨before, sep, after, rfl, hsep, hbefore, hkey, rfl⟩
    rw [Text.cutFirst_append hsep hbefore]
    exact if_neg (by simpa using hkey)

theorem readEntry_eq_none_iff :
    readEntry cs = none ↔ (∀ c ∈ cs, isSeparator c = false) ∨
      ∃ before sep after, cs = before ++ sep :: after ∧ isSeparator sep = true ∧
        ∀ c ∈ before, Text.isBlank c = true := by
  unfold readEntry
  cases hcut : Text.cutFirst isSeparator cs with
  | none => exact iff_of_true rfl (.inl (Text.cutFirst_eq_none_iff.mp hcut))
  | some parts =>
    obtain ⟨before, after⟩ := parts
    obtain ⟨sep, hsep, rfl, hbefore⟩ := Text.cutFirst_eq_some_iff.mp hcut
    have hfound : ¬ ∀ c ∈ before ++ sep :: after, isSeparator c = false := fun hall => by
      simp [hall sep (by simp)] at hsep
    simp only [hfound, false_or, ite_eq_left_iff, reduceCtorEq, imp_false, not_not,
      List.isEmpty_iff, Text.trimChars_eq_nil_iff]
    constructor
    · exact fun hblank => ⟨before, sep, after, rfl, hsep, hblank⟩
    · rintro ⟨before', sep', after', heq, hsep', hblank⟩
      -- blanks are no separators, so this is the first separator too
      have hcut' : Text.cutFirst isSeparator (before' ++ sep' :: after') = some (before', after') :=
        Text.cutFirst_append hsep' fun c hc => isSeparator_of_isBlank (hblank c hc)
      rw [← heq, hcut] at hcut'
      rwa [(Prod.mk.inj (Option.some.inj hcut')).1]

/-- Blanks around a line do not matter to its entry. -/
theorem readEntry_trimChars (cs : List Char) : readEntry (Text.trimChars cs) = readEntry cs := by
  obtain ⟨front, back, hfront, hback, hcs⟩ := Text.exists_blanks cs
  have hseparator {ds : List Char} (h : ∀ c ∈ ds, Text.isBlank c = true) :
      ∀ c ∈ ds, isSeparator c = false := fun c hc => isSeparator_of_isBlank (h c hc)
  generalize Text.trimChars cs = core at hcs
  subst hcs
  cases hread : readEntry core with
  | none =>
    refine (readEntry_eq_none_iff.mpr ?_).symm
    rcases readEntry_eq_none_iff.mp hread with hnone | ⟨before, sep, after, rfl, hsep, hblank⟩
    · exact .inl (List.forall_mem_append.mpr
        ⟨List.forall_mem_append.mpr ⟨hseparator hfront, hnone⟩, hseparator hback⟩)
    · exact .inr ⟨front ++ before, sep, after ++ back, by simp, hsep,
        List.forall_mem_append.mpr ⟨hfront, hblank⟩⟩
  | some e =>
    obtain ⟨before, sep, after, rfl, hsep, hbefore, hkey, rfl⟩ := readEntry_eq_some_iff.mp hread
    have hnil : ∀ c ∈ ([] : List Char), Text.isBlank c = true := List.forall_mem_nil _
    have hleft := Text.trimChars_append hfront hnil before
    have hright := Text.trimChars_append hnil hback after
    rw [List.append_nil] at hleft
    rw [List.nil_append] at hright
    refine (readEntry_eq_some_iff.mpr ⟨front ++ before, sep, after ++ back, by simp, hsep,
      List.forall_mem_append.mpr ⟨hseparator hfront, hbefore⟩, hkey, ?_⟩).symm
    rw [hleft, hright]

theorem holds_iff : Holds line e ↔ ¬ Idle line ∧ readEntry line.toList = some e :=
  and_congr_right fun _ => readEntry_eq_some_iff.symm

theorem malformed_iff : Malformed line ↔ ¬ Idle line ∧ readEntry line.toList = none :=
  and_congr_right fun _ => readEntry_eq_none_iff.symm

theorem Holds.not_malformed (h : Holds line e) : ¬ Malformed line := fun hmalformed => by
  have hnone := (malformed_iff.mp hmalformed).2
  rw [(holds_iff.mp h).2] at hnone
  cases hnone

theorem Holds.unique {e' : String × String} (h : Holds line e) (h' : Holds line e') : e = e' :=
  Option.some.inj ((holds_iff.mp h).2.symm.trans (holds_iff.mp h').2)

/-- A line is idle or malformed, or holds an entry. -/
theorem line_cases (line : String) : Idle line ∨ Malformed line ∨ ∃ e, Holds line e := by
  by_cases hidle : Idle line
  · exact .inl hidle
  · cases hread : readEntry line.toList with
    | none => exact .inr (.inl (malformed_iff.mpr ⟨hidle, hread⟩))
    | some e => exact .inr (.inr ⟨e, holds_iff.mpr ⟨hidle, hread⟩⟩)

/-! ### Reading lines -/

theorem readLines_of_idle (h : Idle line) (n : Nat) (lines : List String) :
    readLines n (line :: lines) = readLines (n + 1) lines :=
  if_pos h

theorem readLines_of_malformed (h : Malformed line) (n : Nat) (lines : List String) :
    readLines n (line :: lines) = .error n := by
  obtain ⟨hidle, hread⟩ := malformed_iff.mp h
  rw [Idle] at hidle
  rw [readLines, if_neg hidle, readEntry_trimChars, hread]

theorem readLines_of_holds (h : Holds line e) (n : Nat) (lines : List String) :
    readLines n (line :: lines) = (readLines (n + 1) lines).map (e :: ·) := by
  obtain ⟨hidle, hread⟩ := holds_iff.mp h
  rw [Idle] at hidle
  rw [readLines, if_neg hidle, readEntry_trimChars, hread]

/-- A line that is not malformed is not the error. -/
theorem readLines_cons_eq_error_iff (h : ¬ Malformed line) :
    readLines n (line :: lines) = .error m ↔ readLines (n + 1) lines = .error m := by
  rcases line_cases line with hidle | hmalformed | ⟨e, he⟩
  · rw [readLines_of_idle hidle]
  · exact absurd hmalformed h
  · rw [readLines_of_holds he]
    cases readLines (n + 1) lines <;> simp [Except.map]

/-- The error is the number of the first malformed line. -/
theorem readLines_eq_error_iff :
    readLines n lines = .error m ↔ ∃ before line after, lines = before ++ line :: after ∧
      Malformed line ∧ (∀ l ∈ before, ¬ Malformed l) ∧ m = n + before.length := by
  induction lines generalizing n with
  | nil => simp [readLines]
  | cons first lines ih =>
    by_cases hfirst : Malformed first
    · rw [readLines_of_malformed hfirst, Except.error.injEq]
      constructor
      · rintro rfl
        exact ⟨[], first, lines, rfl, hfirst, nofun, rfl⟩
      · rintro ⟨before, line, after, hlines, -, hbefore, rfl⟩
        cases before with
        | nil => rfl
        | cons b before =>
          obtain ⟨rfl, -⟩ := List.cons.inj hlines
          exact absurd hfirst (hbefore first List.mem_cons_self)
    · rw [readLines_cons_eq_error_iff hfirst, ih]
      constructor
      · rintro ⟨before, line, after, rfl, hline, hbefore, rfl⟩
        refine ⟨first :: before, line, after, rfl, hline,
          List.forall_mem_cons.mpr ⟨hfirst, hbefore⟩, ?_⟩
        rw [List.length_cons]
        omega
      · rintro ⟨before, line, after, hlines, hline, hbefore, rfl⟩
        cases before with
        | nil =>
          obtain ⟨rfl, -⟩ := List.cons.inj hlines
          exact absurd hline hfirst
        | cons b before =>
          obtain ⟨rfl, rfl⟩ := List.cons.inj hlines
          refine ⟨before, line, after, rfl, hline,
            fun l hl => hbefore l (List.mem_cons_of_mem first hl), ?_⟩
          rw [List.length_cons]
          omega

/-- Without a malformed line, each line that is not idle gives one entry. -/
theorem readLines_eq_ok_iff :
    readLines n lines = .ok es ↔ (∀ line ∈ lines, ¬ Malformed line) ∧
      List.Forall₂ Holds (lines.filter fun line => ¬ Idle line) es := by
  induction lines generalizing n es with
  | nil => simp [readLines, eq_comm]
  | cons first lines ih =>
    rw [List.forall_mem_cons]
    rcases line_cases first with hidle | hmalformed | ⟨e, he⟩
    · have hfirst : ¬ Malformed first := fun h => h.1 hidle
      rw [readLines_of_idle hidle, ih, List.filter_cons_of_neg (by simpa using hidle)]
      simp only [hfirst, not_false_eq_true, true_and]
    · rw [readLines_of_malformed hmalformed]
      simp [hmalformed]
    · have hmap : readLines n (first :: lines) = .ok es ↔
          ∃ es', readLines (n + 1) lines = .ok es' ∧ es = e :: es' := by
        rw [readLines_of_holds he]
        cases readLines (n + 1) lines <;> simp [Except.map, eq_comm]
      rw [hmap, List.filter_cons_of_pos (by simpa using he.1), List.forall₂_cons_left_iff]
      simp only [ih, he.not_malformed, not_false_eq_true, true_and]
      constructor
      · rintro ⟨es', ⟨hlines, hes⟩, rfl⟩
        exact ⟨hlines, e, es', he, hes, rfl⟩
      · rintro ⟨hlines, e', es', he', hes, rfl⟩
        exact ⟨es', ⟨hlines, hes⟩, by rw [he.unique he']⟩

/-! ### Writing entries -/

/-- The entry can be written as a line from which it is read again. -/
structure Canonical (e : String × String) : Prop where
  /-- There is a key. -/
  key_ne : e.1 ≠ ""
  /-- The key does not start or end with a blank. -/
  key_trim : Text.trim e.1 = e.1
  /-- The key has no separator. -/
  key_separator : '=' ∉ e.1.toList ∧ ':' ∉ e.1.toList
  /-- The key does not start as a comment does. -/
  key_comment : e.1.toList.head? ≠ some '#' ∧ e.1.toList.head? ≠ some '!'
  /-- The value does not start or end with a blank. -/
  value_trim : Text.trim e.2 = e.2
  /-- Key and value stand in one line. -/
  newline : '\n' ∉ e.1.toList ∧ '\n' ∉ e.2.toList

/-- The line with an entry. -/
def entryLine (e : String × String) : String := e.1 ++ "=" ++ e.2

/-- The text with the lines of entries. -/
def write (es : List (String × String)) : String := Text.unlines (es.map entryLine)

theorem toList_entryLine (e : String × String) :
    (entryLine e).toList = e.1.toList ++ '=' :: e.2.toList := by
  simp [entryLine]

theorem isComment_eq_true_iff :
    isComment cs = true ↔ cs = [] ∨ cs.head? = some '#' ∨ cs.head? = some '!' := by
  cases cs <;> simp [isComment]

/-- The entry of a line is canonical. -/
theorem canonical_of_holds (h : Holds line e) (hline : '\n' ∉ line.toList) : Canonical e := by
  obtain ⟨hidle, before, sep, after, htext, hsep, hbefore, hkey, rfl⟩ := h
  have hne : Text.trimChars before ≠ [] := by simpa using hkey
  have hhead := Text.head?_trimChars_append hne (sep :: after)
  rw [← htext] at hhead
  simp only [Idle, isComment_eq_true_iff, not_or, hhead] at hidle
  have hfree {c : Char} (hc : isSeparator c = true) : c ∉ Text.trimChars before := fun hmem => by
    simp [hbefore c (Text.trimChars_subset before hmem)] at hc
  rw [htext, List.mem_append, List.mem_cons, not_or, not_or] at hline
  refine ⟨hkey, ?_, ?_, ?_, ?_, ?_⟩ <;> simp only [Text.trim, String.toList_ofList]
  · rw [Text.trimChars_trimChars]
  · exact ⟨hfree (by rfl), hfree (by rfl)⟩
  · exact hidle.2
  · rw [Text.trimChars_trimChars]
  · exact ⟨mt (@Text.trimChars_subset before _) hline.1,
      mt (@Text.trimChars_subset after _) hline.2.2⟩

theorem canonical_of_forall₂_holds (h : List.Forall₂ Holds lines es)
    (hlines : ∀ line ∈ lines, '\n' ∉ line.toList) : ∀ e ∈ es, Canonical e := by
  induction h with
  | nil => exact nofun
  | cons hholds _ ih =>
    obtain ⟨hline, hlines⟩ := List.forall_mem_cons.mp hlines
    exact List.forall_mem_cons.mpr ⟨canonical_of_holds hholds hline, ih hlines⟩

/-- The line of a canonical entry holds this entry. -/
theorem holds_entryLine (h : Canonical e) : Holds (entryLine e) e := by
  obtain ⟨key, value⟩ := e
  have hkey : Text.trimChars key.toList = key.toList := Text.trim_eq_self_iff.mp h.key_trim
  have hvalue : Text.trimChars value.toList = value.toList := Text.trim_eq_self_iff.mp h.value_trim
  have hne : Text.trimChars key.toList ≠ [] := by simpa [hkey] using h.key_ne
  refine ⟨?_, key.toList, '=', value.toList, toList_entryLine _, rfl, fun c hc => ?_, h.key_ne, ?_⟩
  · have hhead := Text.head?_trimChars_append hne ('=' :: value.toList)
    rw [hkey] at hhead
    rw [Idle, isComment_eq_true_iff, toList_entryLine, hhead]
    rintro (hnil | hcomment)
    · rw [hnil, List.head?_nil, eq_comm, List.head?_eq_none_iff, ← hkey] at hhead
      exact hne hhead
    · exact hcomment.elim h.key_comment.1 h.key_comment.2
  · by_contra hsep
    rw [Bool.not_eq_false, isSeparator_eq_true_iff] at hsep
    rcases hsep with rfl | rfl
    · exact h.key_separator.1 hc
    · exact h.key_separator.2 hc
  · rw [hkey, hvalue, String.ofList_toList, String.ofList_toList]

theorem newline_notMem_entryLine (h : Canonical e) : '\n' ∉ (entryLine e).toList := by
  simp [toList_entryLine, h.newline]

theorem getLast?_entryLine (h : Canonical e) : (entryLine e).toList.getLast? ≠ some '\r' := by
  have hvalue := Text.trim_eq_self_iff.mp h.value_trim
  rw [toList_entryLine, List.getLast?_append_of_ne_nil _ (List.cons_ne_nil _ _)]
  cases hcs : e.2.toList with
  | nil => simp
  | cons c cs =>
    rw [List.getLast?_cons_cons, ← hcs, ← hvalue]
    exact fun hlast => absurd (Text.getLast?_trimChars hlast) (by decide)

/-- Canonical entries are read from the text that they are written in. -/
theorem read_write (path : String) (h : ∀ e ∈ es, Canonical e) : read path (write es) = .ok es := by
  have hholds : ∀ line ∈ es.map entryLine, ∃ e, Holds line e :=
    List.forall_mem_map.mpr fun e he => ⟨e, holds_entryLine (h e he)⟩
  have hlines : Text.lines (write es) = es.map entryLine :=
    Text.lines_unlines (List.forall_mem_map.mpr fun e he => newline_notMem_entryLine (h e he))
      (List.forall_mem_map.mpr fun e he => getLast?_entryLine (h e he))
  have hread : readLines 1 (es.map entryLine) = .ok es := by
    refine readLines_eq_ok_iff.mpr ⟨fun line hline => ?_, ?_⟩
    · obtain ⟨e, he⟩ := hholds line hline
      exact he.not_malformed
    · rw [List.filter_eq_self.mpr, List.forall₂_map_left_iff, List.forall₂_same]
      · exact fun e he => holds_entryLine (h e he)
      · intro line hline
        obtain ⟨e, he⟩ := hholds line hline
        exact decide_eq_true he.1
  rw [read, hlines, hread]
  rfl

/-! ### Files -/

/-- **Properties files, line by line.** Reading a file fails exactly if one of its lines is
malformed, and the error has the number of the first such line, counted from one. Otherwise each
line that is neither blank nor a comment gives one entry, in order. What was read is canonical and,
written in lines, is read again. -/
theorem read_line_by_line (path contents : String) :
    (∀ error, read path contents = .error error ↔
      ∃ before line after, Text.lines contents = before ++ line :: after ∧ Malformed line ∧
        (∀ l ∈ before, ¬ Malformed l) ∧ error = .siteSyntax path (before.length + 1)) ∧
    (∀ es, read path contents = .ok es ↔
      (∀ line ∈ Text.lines contents, ¬ Malformed line) ∧
        List.Forall₂ Holds ((Text.lines contents).filter fun line => ¬ Idle line) es) ∧
    ∀ es, read path contents = .ok es →
      (∀ e ∈ es, Canonical e) ∧ ∀ path', read path' (write es) = .ok es := by
  have hok : ∀ es, read path contents = .ok es ↔ readLines 1 (Text.lines contents) = .ok es := by
    intro es
    rw [read]
    cases readLines 1 (Text.lines contents) <;> simp [Except.mapError]
  refine ⟨fun error => ?_, fun es => (hok es).trans readLines_eq_ok_iff, fun es hread => ?_⟩
  · have herror : read path contents = .error error ↔
        ∃ m, readLines 1 (Text.lines contents) = .error m ∧ error = .siteSyntax path m := by
      rw [read]
      cases readLines 1 (Text.lines contents) <;> simp [Except.mapError, eq_comm]
    rw [herror]
    constructor
    · rintro ⟨m, hm, rfl⟩
      obtain ⟨before, line, after, hlines, hline, hbefore, rfl⟩ := readLines_eq_error_iff.mp hm
      exact ⟨before, line, after, hlines, hline, hbefore, by rw [Nat.add_comm]⟩
    · rintro ⟨before, line, after, hlines, hline, hbefore, rfl⟩
      exact ⟨before.length + 1, readLines_eq_error_iff.mpr
        ⟨before, line, after, hlines, hline, hbefore, Nat.add_comm _ _⟩, rfl⟩
  · have hentries := (readLines_eq_ok_iff.mp ((hok es).mp hread)).2
    have hcanonical := canonical_of_forall₂_holds hentries fun line hline =>
      Text.newline_notMem_of_mem_lines (List.mem_of_mem_filter hline)
    exact ⟨hcanonical, fun path' => read_write path' hcanonical⟩

theorem read_line_by_line_mixed :
    ∃ es, read "p" "# c\r\n\n a=b:c\rd\r\nx : #=\r\n" = .ok es ∧
      (∀ e ∈ es, Canonical e) ∧ ∀ path', read path' (write es) = .ok es :=
  ⟨[("a", "b:c\rd"), ("x", "#=")], by decide +kernel,
    (read_line_by_line "p" "# c\r\n\n a=b:c\rd\r\nx : #=\r\n").2.2 _ (by decide +kernel)⟩

end RaftAdmin.Properties
