import Mathlib
import RaftAdmin.Proofs.Configuration.Observation
import RaftAdmin.Proofs.Text.Spelling

/-!
# Values of the wrong type

A value that is not of the type it is read as is quoted in the error, so that an operator finds it
in the configuration. What is quoted is the value as it was resolved, with the blanks that a reader
passes over and in the spelling that it has, but for one getter: a span of time that is a negative
number is quoted as this number.

## The model

The getters differ in the reader that is applied to the resolved value. Names of any list are read
by `getChoice`, of which the getter for log formats is a case.

## What is proved

* `reports_readAs` — a getter that applies a reader passes errors of the read on and quotes the
  resolved value.
* **`mismatch_quotes`** — what the error of each getter quotes.
* **`exists_requoted_value`** — a negative span of time with a zero in front is quoted without it.
-/

namespace RaftAdmin

namespace Configuration

variable {α : Type} {c : Configuration} {k : PropertyKey} {key value : String} {kind : ValueKind}

/-! ### Names of a list -/

/-- The value, in upper case, as one of the names of a list that is called `name`. -/
def getChoice (c : Configuration) (name : String) (read : String → Option α) (k : PropertyKey) :
    Except ConfigError α :=
  c.get k >>= readAs (.choice name) (fun cs => read (String.ofList (cs.map Char.toUpper))) k

/-- The getter for log formats reads names of their list. -/
theorem getLogFormat_eq_getChoice (c : Configuration) (k : PropertyKey) :
    c.getLogFormat k
      = c.getChoice "quorumsh::logging::LogFormat" (fun s => (LogFormat.read s).toOption) k := by
  have hcase (cs : List Char) :
      LogFormat.read (String.ofList (cs.map Char.toUpper)) = LogFormat.read (String.ofList cs) := by
    simp [LogFormat.read, Function.comp_def, Char.toLower_toUpper_eq_toLower]
  simp only [getChoice, hcase]
  rfl

/-! ### Errors -/

theorem get_ne_typeMismatch : c.get k ≠ .error (.typeMismatch key value kind) := fun h =>
  (error_of_get h).elim id nofun

/-- How reading a key as a type is to fail: errors of the read are passed on, and else the value is
quoted as it was resolved, with the name of the key. -/
structure Reports (c : Configuration) (k : PropertyKey) (r : Except ConfigError α) : Prop where
  /-- The key cannot be read. -/
  passes : ∀ e, c.get k = .error e → r = .error e
  /-- The value is not of the type. -/
  quotes : ∀ key value kind, r = .error (.typeMismatch key value kind) →
    c.get k = .ok value ∧ key = k.name
  /-- Nothing else is an error. -/
  only : ∀ e, r = .error e →
    c.get k = .error e ∨ ∃ value kind, e = .typeMismatch k.name value kind

theorem reports_readAs (c : Configuration) (k : PropertyKey) (kind : ValueKind)
    (reader : List Char → Option α) : Reports c k (c.get k >>= readAs kind reader k) where
  passes e h := bind_readAs_eq_error_iff.mpr (.inl h)
  quotes key value kind' h := by
    rcases bind_readAs_eq_error_iff.mp h with hget | ⟨text, hget, -, he⟩
    · exact absurd hget get_ne_typeMismatch
    · obtain ⟨rfl, rfl, -⟩ := ConfigError.typeMismatch.inj he
      exact ⟨hget, rfl⟩
  only e h := (bind_readAs_eq_error_iff.mp h).imp_right fun ⟨text, _, _, he⟩ => ⟨text, kind, he⟩

/-- Every getter but that for spans of time reports as it is to. -/
theorem Getter.reports (g : Getter) (hg : g ≠ .duration) : Reports c k (g.read c k) := by
  refine ⟨fun e h => g.read_eq_error h, fun key value kind h => ?_, fun e h => g.error_cases h⟩
  cases g with
  | text => exact absurd h get_ne_typeMismatch
  | int | long | double | bool | logFormat => exact (reports_readAs c k _ _).quotes _ _ _ h
  | list delimiter => exact absurd (getList_eq_error_iff.mp h) get_ne_typeMismatch
  | duration => exact absurd rfl hg

/-! ### Spans of time -/

/-- How a negative number may be written: which blanks stand around it, and how many zeros in front
of its digits. -/
structure Padding where
  /-- The blanks before it. -/
  front : List Char
  /-- The blanks after it. -/
  back : List Char
  /-- How many zeros stand in front. -/
  zeros : Nat
  /-- Only blanks stand before it. -/
  blank_front : ∀ c ∈ front, Text.isBlank c = true
  /-- Only blanks stand after it. -/
  blank_back : ∀ c ∈ back, Text.isBlank c = true

namespace Padding

/-- The number `-n`, written in this way. -/
def write (w : Padding) (n : Nat) : String :=
  String.ofList (w.front ++ '-' :: (List.replicate w.zeros '0' ++ Text.digits n) ++ w.back)

/-- Whether there is nothing around the number. -/
def IsEmpty (w : Padding) : Prop := w.front = [] ∧ w.zeros = 0 ∧ w.back = []

theorem toList_signedNumeral (n : Nat) :
    (Text.signedNumeral (.negSucc n)).toList = '-' :: Text.digits (n + 1) := by
  simp [Text.signedNumeral, Text.numeral]

/-- The plain numeral is the way to write a number with nothing around it. -/
theorem signedNumeral_eq_write_iff {w : Padding} {n : Nat} :
    Text.signedNumeral (.negSucc n) = w.write (n + 1) ↔ w.IsEmpty := by
  rw [← String.toList_inj, toList_signedNumeral, write, String.toList_ofList]
  constructor
  · intro h
    have hlength := congrArg List.length h
    simp only [List.length_cons, List.length_append, List.length_replicate] at hlength
    exact ⟨List.length_eq_zero_iff.mp (by omega), by omega, List.length_eq_zero_iff.mp (by omega)⟩
  · rintro ⟨hfront, hzeros, hback⟩
    simp [hfront, hzeros, hback]

/-- A text is read as a negative number if it is one, written in some way. -/
theorem exists_write {bound n : Nat} {text : String}
    (h : Text.readInt? bound (Text.trimChars text.toList) = some (.negSucc n)) :
    ∃ w : Padding, text = w.write (n + 1) := by
  obtain ⟨-, zeros, htrim⟩ := Text.readInt?_eq_negSucc_iff.mp h
  obtain ⟨front, back, hfront, hback, htext⟩ := Text.exists_blanks text.toList
  refine ⟨⟨front, back, zeros, hfront, hback⟩, ?_⟩
  rw [write, ← htrim, ← htext, String.ofList_toList]

end Padding

/-- **What a mismatch quotes.** A getter passes the error of the read on if the key cannot be read.
Else the error of a value that is not of the type quotes this value as it was resolved, and the name
of the key; so does every getter but that for spans of time, whatever list of names it reads. The
error of a span of time quotes the resolved value if this is no integer of 64 bits. If it is a
negative one, then its plain numeral is quoted, which is the resolved value exactly if no blanks
stand around it and no zeros in front. -/
theorem mismatch_quotes (c : Configuration) (k : PropertyKey) :
    (∀ g : Getter, g ≠ .duration → Reports c k (g.read c k)) ∧
    (∀ (α : Type) (name : String) (read : String → Option α),
      Reports c k (c.getChoice name read k)) ∧
    (∀ e, c.get k = .error e → c.getDuration k = .error e) ∧
    ∀ key value kind, c.getDuration k = .error (.typeMismatch key value kind) →
      key = k.name ∧ ∃ text, c.get k = .ok text ∧
        (kind = .long ∧ value = text ∨
          kind = .duration ∧ ∃ (w : Padding) (n : Nat), text = w.write (n + 1) ∧
            value = Text.signedNumeral (.negSucc n) ∧ (value = text ↔ w.IsEmpty)) := by
  refine ⟨fun g => g.reports, fun α name read => reports_readAs c k _ _,
    fun e h => Getter.duration.read_eq_error h, fun key value kind h => ?_⟩
  rcases getDuration_eq_error_iff.mp h with hmismatch | ⟨n, hnegative, he⟩
  · rcases bind_readAs_eq_error_iff.mp hmismatch with hget | ⟨text, hget, -, he⟩
    · exact absurd hget get_ne_typeMismatch
    · obtain ⟨rfl, rfl, rfl⟩ := ConfigError.typeMismatch.inj he
      exact ⟨rfl, value, hget, .inl ⟨rfl, rfl⟩⟩
  · obtain ⟨rfl, rfl, rfl⟩ := ConfigError.typeMismatch.inj he
    obtain ⟨text, hget, hread⟩ := bind_readAs_eq_ok_iff.mp hnegative
    obtain ⟨w, rfl⟩ := Padding.exists_write hread
    exact ⟨rfl, _, hget, .inr ⟨rfl, w, n, rfl, rfl, Padding.signedNumeral_eq_write_iff⟩⟩

/-- A value with a blank in front and a letter behind is quoted with both, as an integer and as a
span of time. -/
theorem mismatch_quotes_padded :
    ∃ c, Configuration.empty.set .electSettleDelay " 5x" = .ok c ∧
      c.getInt .electSettleDelay
        = .error (.typeMismatch PropertyKey.electSettleDelay.name " 5x" .integer) ∧
      c.getDuration .electSettleDelay
        = .error (.typeMismatch PropertyKey.electSettleDelay.name " 5x" .long) ∧
      c.get .electSettleDelay = .ok " 5x" := by
  obtain ⟨c, hset⟩ : ∃ c, Configuration.empty.set .electSettleDelay " 5x" = .ok c :=
    ⟨_, set_eq_ok_iff.mpr ⟨by decide, rfl⟩⟩
  have hget : c.get .electSettleDelay = .ok " 5x" := get_of_set hset (by decide)
  have hint : c.getInt .electSettleDelay
      = .error (.typeMismatch PropertyKey.electSettleDelay.name " 5x" .integer) :=
    bind_readAs_eq_error_iff.mpr (.inr ⟨_, hget, by decide +kernel, rfl⟩)
  have hlong : c.getLong .electSettleDelay
      = .error (.typeMismatch PropertyKey.electSettleDelay.name " 5x" .long) :=
    bind_readAs_eq_error_iff.mpr (.inr ⟨_, hget, by decide +kernel, rfl⟩)
  have hquoted := ((mismatch_quotes c .electSettleDelay).1 .int nofun).quotes _ _ _ hint
  exact ⟨c, hset, hint, getDuration_eq_error_iff.mpr (.inl hlong), hquoted.1⟩

/-- **A value that is quoted in another spelling.** A span of time is set to a negative number with
a zero in front. It is read as it was set, and refused as a span of time with an error that quotes
it without the zero. -/
theorem exists_requoted_value :
    ∃ c, Configuration.empty.set .electSettleDelay "-05" = .ok c ∧
      c.get .electSettleDelay = .ok "-05" ∧
      c.getDuration .electSettleDelay
        = .error (.typeMismatch PropertyKey.electSettleDelay.name "-5" .duration) ∧
      ¬Reports c .electSettleDelay (c.getDuration .electSettleDelay) := by
  obtain ⟨c, hset⟩ : ∃ c, Configuration.empty.set .electSettleDelay "-05" = .ok c :=
    ⟨_, set_eq_ok_iff.mpr ⟨by decide, rfl⟩⟩
  have hget : c.get .electSettleDelay = .ok "-05" := get_of_set hset (by decide)
  have hlong : c.getLong .electSettleDelay = .ok (.negSucc 4) :=
    bind_readAs_eq_ok_iff.mpr ⟨_, hget, by decide +kernel⟩
  have hduration : c.getDuration .electSettleDelay
      = .error (.typeMismatch PropertyKey.electSettleDelay.name "-5" .duration) :=
    getDuration_eq_error_iff.mpr (.inr ⟨4, hlong, by decide +kernel⟩)
  refine ⟨c, hset, hget, hduration, fun hreports => ?_⟩
  have hquoted := (hreports.quotes _ _ _ hduration).1
  rw [hget] at hquoted
  exact absurd (Except.ok.inj hquoted) (by decide)

end Configuration

end RaftAdmin
