import Mathlib.Data.List.Forall2
import RaftAdmin.Cluster.Basic
import RaftAdmin.Program
import RaftAdmin.Proofs.Text.System

/-!
# Single-dash options

Older scripts write options with one dash where newer ones write two. Arguments are rewritten before
they are read, so it makes no difference which of them a script does, option by option, as long as
the option is a text. The bytes of an option that is none are not looked at: it keeps its single
dash, and is read as short flags.

## The model

The rewriting looks at one argument at a time, at three characters of it, and does not know which
arguments are values. What it takes for an option is said here without these characters: a dash, a
name of two bytes or more that starts with a letter, and perhaps a value after an equals sign
(`IsOption`). The name ends at the first equals sign, so `-a=b` is a short flag, like `-a` itself,
and not another way to write `--a=b`.

## What is proved

* `isSingleDash_iff` — the three characters tell these options from all other arguments.
* `tightened_normalizeArgument` — the options with one dash get a second one and nothing else
  changes.
* `normalizeAll_of_loosened` — options with two dashes may lose one of them, whichever they are.
* **`dashes_interchangeable`** — arguments that differ in such dashes are rewritten to the same, ask
  for the same command and run the same.
* `normalizeArgument_eq_iff`, `normalizeArgument_ne_of_not_text`, `exists_telling_dash` — what is no
  option or no text must not lose a dash.
-/

namespace RaftAdmin

namespace Arguments

variable {name : List Char} {body : String} {word word' : OsText} {words words' : List OsText}

/-! ### Names of options -/

/-- A name of two bytes or more that starts with a letter. -/
structure IsName (name : List Char) : Prop where
  /-- A single letter is a short flag. -/
  long : 2 ≤ Text.byteLength name
  /-- A digit starts a number, and a dash is the second one. -/
  letter : ∃ c cs, name = c :: cs ∧ c.isAlpha
  /-- What follows an equals sign is the value. -/
  ends : '=' ∉ name

/-- What follows the dashes of an option. -/
inductive IsOption : List Char → Prop where
  /-- The name alone. -/
  | alone {name : List Char} (h : IsName name) : IsOption name
  /-- The name and a value. -/
  | withValue {name : List Char} (h : IsName name) (value : List Char) :
    IsOption (name ++ '=' :: value)

theorem ne_equals_of_isAlpha {c : Char} (h : c.isAlpha) : c ≠ '=' := by
  rintro rfl
  exact absurd h (by decide)

/-- A letter is a single byte. -/
theorem utf8Size_of_isAlpha {c : Char} (h : c.isAlpha) : c.utf8Size = 1 := by
  have hval : c.val ≤ 0x7f := by
    rcases (Bool.or_eq_true _ _).mp h with hupper | hlower
    · have hbounds : 'A'.val ≤ c.val ∧ c.val ≤ 'Z'.val := of_decide_eq_true hupper
      exact UInt32.le_trans hbounds.2 (by decide)
    · have hle : c.val ≤ 'z'.val := of_decide_eq_true ((Bool.and_eq_true _ _).mp hlower).2
      exact UInt32.le_trans hle (by decide)
  exact Char.utf8Size_eq_one_iff.mpr hval

theorem IsName.exists_cons (h : IsName name) :
    ∃ c d cs, name = c :: d :: cs ∧ c.isAlpha ∧ d ≠ '=' := by
  obtain ⟨c, cs, rfl, hc⟩ := h.letter
  cases cs with
  | nil =>
    have hlong := h.long
    rw [Text.byteLength, utf8Size_of_isAlpha hc, Text.byteLength] at hlong
    omega
  | cons d cs =>
    refine ⟨c, d, cs, rfl, hc, ?_⟩
    rintro rfl
    exact h.ends (by simp)

theorem isName_cons_cons {c d : Char} {cs : List Char} (hc : c.isAlpha) (hd : d ≠ '=')
    (hcs : '=' ∉ cs) : IsName (c :: d :: cs) where
  long := by
    have hc := c.utf8Size_pos
    have hd := d.utf8Size_pos
    simp only [Text.byteLength]
    omega
  letter := ⟨c, d :: cs, rfl, hc⟩
  ends := by simp [(ne_equals_of_isAlpha hc).symm, hd.symm, hcs]

/-- The first two characters tell whether a text is a name with or without a value. -/
theorem isOption_iff {cs : List Char} :
    IsOption cs ↔ ∃ c d rest, cs = c :: d :: rest ∧ c.isAlpha ∧ d ≠ '=' := by
  constructor
  · rintro (h | ⟨h, value⟩)
    · exact h.exists_cons
    · obtain ⟨c, d, rest, rfl, hc, hd⟩ := h.exists_cons
      exact ⟨c, d, rest ++ '=' :: value, rfl, hc, hd⟩
  · rintro ⟨c, d, rest, rfl, hc, hd⟩
    by_cases hmem : '=' ∈ rest
    · obtain ⟨front, value, rfl, hfront⟩ := List.eq_append_cons_of_mem hmem
      exact .withValue (isName_cons_cons hc hd hfront) value
    · exact .alone (isName_cons_cons hc hd hmem)

theorem not_isOption_dash (cs : List Char) : ¬IsOption ('-' :: cs) := by
  rw [isOption_iff]
  rintro ⟨c, d, rest, heq, hc, -⟩
  obtain ⟨rfl, -⟩ := List.cons.inj heq
  exact absurd hc (by decide)

/-! ### One argument -/

/-- An argument is rewritten if it is a dash and an option. -/
theorem isSingleDash_iff {cs : List Char} :
    isSingleDash cs ↔ ∃ body, cs = '-' :: body ∧ IsOption body := by
  simp only [isOption_iff]
  constructor
  · intro h
    unfold isSingleDash at h
    split at h
    · next c cs =>
      cases cs with
      | nil => simp at h
      | cons d rest =>
        obtain ⟨hc, hd⟩ : c.isAlpha ∧ d ≠ '=' := by simpa using h
        exact ⟨c :: d :: rest, rfl, c, d, rest, rfl, hc, hd⟩
    · cases h
  · rintro ⟨_, rfl, c, d, rest, rfl, hc, hd⟩
    simp [isSingleDash, hc, hd]

/-- An option with one dash. -/
def SingleDash (word : OsText) : Prop :=
  ∃ body : String, word = .text ("-" ++ body) ∧ IsOption body.toList

theorem isSingleDash_toList_iff {text : String} :
    isSingleDash text.toList ↔ SingleDash (.text text) := by
  rw [isSingleDash_iff]
  constructor
  · rintro ⟨body, heq, hbody⟩
    have htext : text = "-" ++ String.ofList body := String.ext (by simpa using heq)
    exact ⟨String.ofList body, congrArg _ htext, by simpa using hbody⟩
  · rintro ⟨body, heq, hbody⟩
    obtain rfl := OsText.text.inj heq
    exact ⟨body.toList, by simp, hbody⟩

/-- An option with one dash gets a second one. -/
theorem normalizeArgument_dash (h : IsOption body.toList) :
    normalizeArgument (.text ("-" ++ body)) = .text ("--" ++ body) := by
  rw [normalizeArgument, normalizeWord, if_pos (isSingleDash_toList_iff.mpr ⟨body, rfl, h⟩),
    ← String.append_assoc]
  rfl

/-- Anything but an option with one dash stays as it is. -/
theorem normalizeArgument_of_not (h : ¬SingleDash word) : normalizeArgument word = word := by
  cases word with
  | text text =>
    exact congrArg OsText.text (if_neg fun hdash => h (isSingleDash_toList_iff.mp hdash))
  | raw bytes hraw => rfl

/-- What has two dashes stays as it is. -/
theorem normalizeArgument_dashes (body : String) :
    normalizeArgument (.text ("--" ++ body)) = .text ("--" ++ body) := by
  refine normalizeArgument_of_not ?_
  rintro ⟨body', heq, hbody'⟩
  have hchars : '-' :: body.toList = body'.toList := by
    simpa using congrArg String.toList (OsText.text.inj heq)
  exact not_isOption_dash body.toList (hchars ▸ hbody')

/-- Of the texts, only options may be written either way. -/
theorem normalizeArgument_eq_iff :
    normalizeArgument (.text ("-" ++ body)) = normalizeArgument (.text ("--" ++ body))
      ↔ IsOption body.toList := by
  rw [normalizeArgument_dashes]
  constructor
  · intro heq
    by_contra hbody
    have hkept : ¬SingleDash (.text ("-" ++ body)) := by
      rintro ⟨body', heq', hbody'⟩
      obtain rfl : body = body' := by simpa using OsText.text.inj heq'
      exact hbody hbody'
    rw [normalizeArgument_of_not hkept] at heq
    have hlength := congrArg String.length (OsText.text.inj heq)
    simp only [String.length_append] at hlength
    exact absurd (Nat.add_right_cancel hlength) (by decide)
  · exact normalizeArgument_dash

/-! ### Two ways to write an option -/

/-- How an argument may be written: an option with two dashes may lose one of them. -/
inductive Loosened : OsText → OsText → Prop where
  /-- The argument stays as it is. -/
  | keep (word : OsText) : Loosened word word
  /-- The option has one dash left. -/
  | drop {body : String} (h : IsOption body.toList) :
    Loosened (.text ("--" ++ body)) (.text ("-" ++ body))

/-- How an argument is rewritten: an option with one dash gets a second one. -/
inductive Tightened : OsText → OsText → Prop where
  /-- The option has two dashes. -/
  | add {body : String} (h : IsOption body.toList) :
    Tightened (.text ("-" ++ body)) (.text ("--" ++ body))
  /-- Anything else stays as it is. -/
  | keep {word : OsText} (h : ¬SingleDash word) : Tightened word word

/-- The options with one dash get a second one and nothing else changes. -/
theorem tightened_normalizeArgument (word : OsText) : Tightened word (normalizeArgument word) := by
  by_cases h : SingleDash word
  · obtain ⟨body, rfl, hbody⟩ := h
    rw [normalizeArgument_dash hbody]
    exact .add hbody
  · rw [normalizeArgument_of_not h]
    exact .keep h

theorem normalizeArgument_normalizeArgument (word : OsText) :
    normalizeArgument (normalizeArgument word) = normalizeArgument word := by
  generalize hresult : normalizeArgument word = result
  cases hresult ▸ tightened_normalizeArgument word with
  | add h => exact normalizeArgument_dashes _
  | keep h => exact hresult

theorem normalizeArgument_of_loosened (h : Loosened word word') :
    normalizeArgument word' = normalizeArgument word := by
  cases h with
  | keep => rfl
  | drop h => rw [normalizeArgument_dash h, normalizeArgument_dashes]

/-- Bytes that are no text are told by their dashes. -/
theorem normalizeArgument_ne_of_not_text {bytes : List UInt8}
    (h : ¬ bytes.toByteArray.IsValidUTF8) :
    normalizeArgument (.ofBytes (Text.bytes "-" ++ bytes))
      ≠ normalizeArgument (.ofBytes (Text.bytes "--" ++ bytes)) := by
  have hone : ¬ (Text.bytes "-" ++ bytes).toByteArray.IsValidUTF8 :=
    mt OsText.isValidUTF8_bytes_append_iff.mp h
  have htwo : ¬ (Text.bytes "--" ++ bytes).toByteArray.IsValidUTF8 :=
    mt OsText.isValidUTF8_bytes_append_iff.mp h
  rw [OsText.ofBytes_of_not hone, OsText.ofBytes_of_not htwo]
  intro heq
  have hbytes : Text.bytes "-" ++ bytes = Text.bytes "--" ++ bytes := (OsText.raw.inj heq)
  exact absurd (List.append_cancel_right hbytes) (by decide)

/-! ### All arguments -/

/-- Arguments that are texts are rewritten as texts. -/
theorem normalizeAll_text (texts : List String) :
    normalizeAll (texts.map .text) = (normalize texts).map .text := by
  rw [normalizeAll, normalize, List.map_map, List.map_map]
  rfl

/-- Options with two dashes may lose one of them, whichever they are. -/
theorem normalizeAll_of_loosened (h : List.Forall₂ Loosened words words') :
    normalizeAll words' = normalizeAll words := by
  induction h with
  | nil => rfl
  | cons hword _ ih =>
    simp only [normalizeAll, List.map_cons] at ih ⊢
    rw [normalizeArgument_of_loosened hword, ih]

theorem normalizeAll_normalizeAll (words : List OsText) :
    normalizeAll (normalizeAll words) = normalizeAll words := by
  rw [normalizeAll, normalizeAll, List.map_map]
  exact List.map_congr_left fun word _ => normalizeArgument_normalizeArgument word

/-- Each argument is rewritten in its place. -/
theorem forall₂_tightened_normalizeAll (words : List OsText) :
    List.Forall₂ Tightened words (normalizeAll words) := by
  rw [normalizeAll, List.forall₂_map_right_iff, List.forall₂_same]
  exact fun word _ => tightened_normalizeArgument word

theorem read_congr (h : normalizeAll words' = normalizeAll words) : read words' = read words := by
  rw [read, read, h]

end Arguments

/-! ### What runs -/

namespace Shell

variable {words words' : List OsText}

/-- The name of the program is rewritten like any argument. -/
theorem programName_congr (h : Arguments.normalizeAll words' = Arguments.normalizeAll words) :
    programName words' = programName words := by
  have hhead := congrArg List.head? h
  rw [Arguments.normalizeAll, Arguments.normalizeAll, List.head?_map, List.head?_map] at hhead
  rw [programName, programName, hhead]

theorem run_congr (h : Arguments.normalizeAll words' = Arguments.normalizeAll words)
    (c : Configuration) : run c words' = run c words := by
  unfold run explain
  rw [Arguments.read_congr h, programName_congr h]

end Shell

theorem Program.run_congr {τ : Type} {words words' : List OsText}
    (h : Arguments.normalizeAll words' = Arguments.normalizeAll words) (env : Environment)
    (files : FileTree) (t : Http.Transport τ) (network : τ) :
    run env files t words' network = run env files t words network := by
  unfold run
  rw [Arguments.read_congr h, Shell.programName_congr h]

namespace Arguments

/-- **Options with one dash and options with two are interchangeable**, as far as they are texts.
Dropping one dash from any of them changes nothing; and all arguments are rewritten in their places,
once and for all, of which only such options with one dash are changed. -/
theorem dashes_interchangeable (words : List OsText) :
    (∀ words', List.Forall₂ Loosened words words' →
      normalizeAll words' = normalizeAll words
        ∧ read words' = read words
        ∧ (∀ c, Shell.run c words' = Shell.run c words)
        ∧ ∀ {τ : Type} env files (t : Http.Transport τ) network,
          Program.run env files t words' network = Program.run env files t words network)
      ∧ normalizeAll (normalizeAll words) = normalizeAll words
      ∧ List.Forall₂ Tightened words (normalizeAll words) := by
  refine ⟨fun words' hwords => ?_, normalizeAll_normalizeAll words,
    forall₂_tightened_normalizeAll words⟩
  have hsame := normalizeAll_of_loosened hwords
  exact ⟨hsame, read_congr hsame, Shell.run_congr hsame, Program.run_congr hsame⟩

/-- Two of three options lose a dash, next to short flags and a number. -/
theorem dashes_interchangeable_info :
    let words : List OsText :=
      ["quorumsh", "--conf", "x", "info", "--peers=h1:1", "--groupId", "-5", "-h", "-a="]
    let words' : List OsText :=
      ["quorumsh", "-conf", "x", "info", "-peers=h1:1", "--groupId", "-5", "-h", "-a="]
    List.Forall₂ Loosened words words'
      ∧ normalizeAll words' = words
      ∧ ∀ c, Shell.run c words' = Shell.run c words := by
  intro words words'
  have hconf : Loosened "--conf" "-conf" :=
    @Loosened.drop "conf" (isOption_iff.mpr ⟨'c', 'o', _, rfl, by decide, by decide⟩)
  have hpeers : Loosened "--peers=h1:1" "-peers=h1:1" :=
    @Loosened.drop "peers=h1:1" (isOption_iff.mpr ⟨'p', 'e', _, rfl, by decide, by decide⟩)
  have hwords : List.Forall₂ Loosened words words' :=
    .cons (.keep _) <| .cons hconf <| .cons (.keep _) <| .cons (.keep _) <| .cons hpeers <|
      .cons (.keep _) <| .cons (.keep _) <| .cons (.keep _) <| .cons (.keep _) .nil
  obtain ⟨hnormalize, -, hrun, -⟩ := (dashes_interchangeable words).1 words' hwords
  exact ⟨hwords, hnormalize.trans (by decide), hrun⟩

/-- **A dash that tells.** A name ends at the first equals sign, however long the rest is. And the
path of a site file need not be a text: with two dashes it is read as the value of its option, and
without one of them the option is not rewritten and not known. -/
theorem exists_telling_dash :
    normalizeAll ["quorumsh", "-a=b", "info"] ≠ normalizeAll ["quorumsh", "--a=b", "info"] ∧
    let words : List OsText := ["quorumsh", .ofBytes (Text.bytes "--conf=" ++ [0xFF]), "info"]
    let words' : List OsText := ["quorumsh", .ofBytes (Text.bytes "-conf=" ++ [0xFF]), "info"]
    normalizeAll words' ≠ normalizeAll words ∧
      (read words).map CommandLine.path? = .ok (some (.ofBytes [0xFF])) ∧
      read words' = .error (.unexpected "-c") ∧
      Shell.run .empty words' ≠ Shell.run .empty words := by
  refine ⟨by decide, ?_⟩
  intro words words'
  refine ⟨by decide, by decide +kernel, by decide +kernel, fun hrun => ?_⟩
  have hwritten := congrArg (fun p =>
    (Session.run Cluster.connector p (.start .empty .empty none)).2.sink.written) hrun
  revert hwritten
  decide +kernel

end Arguments

end RaftAdmin
