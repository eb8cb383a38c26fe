import RaftAdmin.Proofs.Command.Course
import RaftAdmin.Proofs.Peer.List

/-!
# Reading arguments

The arguments of a command can be malformed, a property that it needs can be, and the values of a
list option can be nothing but blanks. This module says which errors reading them ends with, and
when.

## The model

The values of a list option are cut into parts (`Task.parts`), blank ones included. What is read
from them are the parts that are not blank.

## What is proved

* `listParts_eq_nil_iff` — no part is read exactly if all are blank.
* `error_of_errand` — reading the arguments fails by something malformed, or because a list option
  is given nothing.
* `errand_of_blank` — a list option that is given nothing but blanks is an error.
-/

namespace RaftAdmin

open Script (Path)

/-! ### Kinds of errors -/

/-- The kinds of errors that what the operator gave is to blame for. -/
def AdminError.mistakes : List String :=
  ["InvalidAddress", "InvalidArgument", "MissingInput", "Config"]

/-- Whether what the operator gave is to blame for the error. -/
def AdminError.IsMistake (e : AdminError) : Prop := e.kind ∈ mistakes

/-- Whether something malformed is to blame, rather than that an option was given nothing. -/
def AdminError.Malformed : AdminError → Prop
  | .invalidAddress _ _ => True
  | .invalidArgument _ => True
  | .config _ => True
  | _ => False

/-- A mistake is something malformed, or that an option was given nothing. -/
theorem AdminError.isMistake_iff {e : AdminError} :
    e.IsMistake ↔ e.Malformed ∨ ∃ option, e = .missingInput option := by
  cases e <;> simp [IsMistake, kind, mistakes, Malformed]

theorem AdminError.Malformed.isMistake {e : AdminError} (h : e.Malformed) : e.IsMistake :=
  isMistake_iff.mpr (.inl h)

/-! ### Values -/

/-- The parts of the values of a task's list option, blank ones included. -/
def Task.parts : Task → List String
  | .quorumAdd values => values.flatMap (Text.splitAt ',')
  | .quorumRemove values => values.flatMap (Text.splitAt ',')
  | .setPriority values => values.flatMap (Text.splitAt ';')
  | _ => []

theorem nonblankParts_eq_nil_iff {separator : Char} {value : String} :
    Text.nonblankParts separator value = [] ↔
      ∀ part ∈ Text.splitAt separator value, Text.trim part = "" := by
  simp [Text.nonblankParts, Text.splitAt, Text.trim]

/-- No part is read exactly if all are blank. -/
theorem listParts_eq_nil_iff {separator : Char} {values : List String} :
    listParts separator values = [] ↔
      ∀ part ∈ values.flatMap (Text.splitAt separator), Text.trim part = "" := by
  simp only [listParts, List.flatMap_eq_nil_iff, nonblankParts_eq_nil_iff, List.mem_flatMap]
  constructor
  · rintro h part ⟨value, hvalue, hpart⟩
    exact h value hvalue part hpart
  · intro h value hvalue part hpart
    exact h part ⟨value, hvalue, hpart⟩

section

variable {e : AdminError}

theorem malformed_of_readAddress {s : String} (h : readAddress s = .error e) : e.Malformed := by
  unfold readAddress at h
  split at h
  · cases h
  · obtain rfl := Except.error.inj h
    trivial

theorem malformed_of_readPair {pair : String} (h : readPair pair = .error e) : e.Malformed := by
  unfold readPair at h
  split at h
  · obtain rfl := Except.error.inj h
    trivial
  · split at h
    · obtain rfl := Except.error.inj h
      trivial
    · split at h
      · next e' haddress =>
        obtain rfl := Except.error.inj h
        exact malformed_of_readAddress haddress
      · cases h

theorem malformed_of_readTarget {address? : Option String} (h : readTarget address? = .error e) :
    e.Malformed := by
  cases address? with
  | none =>
    obtain rfl := Except.error.inj h
    trivial
  | some address => exact malformed_of_readAddress h

/-- The parts of a list option cannot be read if one of them cannot be, or if there are none. -/
theorem error_of_readParts {β : Type} {option : ListOption} {read : String → Except AdminError β}
    (hread : ∀ {part}, read part = .error e → e.Malformed) {parts : List String}
    (h : readParts option read parts = .error e) :
    e.Malformed ∨ parts = [] ∧ e = .missingInput option.text := by
  unfold readParts at h
  split at h
  · next e' hparts =>
    obtain rfl := Except.error.inj h
    obtain ⟨part, -, hpart⟩ := exists_mem_of_mapM_error hparts
    exact .inl (hread hpart)
  · next bs hparts =>
    split at h
    · next hempty =>
      obtain rfl := Except.error.inj h
      rw [List.isEmpty_iff] at hempty
      exact .inr ⟨eq_nil_of_mapM_ok (hempty ▸ hparts), rfl⟩
    · cases h

/-! ### Arguments -/

variable {conf : Configuration} {task : Task} {xs : List Turn}

/-- Whether the list option of a task is given nothing but blanks. -/
def Task.Blank (task : Task) : Prop := ∀ part ∈ task.parts, Text.trim part = ""

theorem malformed_of_readDuration {k : PropertyKey}
    (h : Path (readDuration conf k).run xs (.error e)) : e.Malformed := by
  obtain ⟨_, ys, hy, -⟩ := Script.path_perform_bind_iff.mp h
  obtain ⟨-, hread⟩ := Script.path_ofExcept_iff.mp hy
  cases hduration : conf.getDuration k with
  | error cause =>
    rw [hduration] at hread
    obtain rfl := Except.error.inj hread
    trivial
  | ok ms =>
    rw [hduration] at hread
    cases hread

section

variable {β : Type} {option : ListOption} {read : String → Except AdminError β} {separator : Char}
  {values : List String} {f : List β → Errand} {result : Except AdminError Errand}

theorem error_of_values (hread : ∀ {part}, read part = .error e → e.Malformed)
    (h : Path (Act.ofExcept ((readParts option read (listParts separator values)).map f)).run xs
      (.error e)) :
    e.Malformed ∨ (∀ part ∈ values.flatMap (Text.splitAt separator), Text.trim part = "") ∧
      ∃ option, e = .missingInput option := by
  obtain ⟨-, hmap⟩ := Script.path_ofExcept_iff.mp h
  cases hparts : readParts option read (listParts separator values) with
  | ok bs =>
    rw [hparts] at hmap
    cases hmap
  | error e' =>
    rw [hparts] at hmap
    obtain rfl := Except.error.inj hmap
    refine (error_of_readParts hread hparts).imp_right fun ⟨hnil, he⟩ => ?_
    exact ⟨listParts_eq_nil_iff.mp hnil, _, he⟩

theorem error_of_blank_values
    (hblank : ∀ part ∈ values.flatMap (Text.splitAt separator), Text.trim part = "")
    (h : Path (Act.ofExcept ((readParts option read (listParts separator values)).map f)).run xs
      result) :
    xs = [] ∧ ∃ option, result = .error (.missingInput option) := by
  obtain ⟨rfl, rfl⟩ := Script.path_ofExcept_iff.mp h
  rw [listParts_eq_nil_iff.mpr hblank]
  exact ⟨rfl, _, rfl⟩

end

/-- Reading the arguments fails by something malformed, or because a list option is given nothing
but blanks. -/
theorem error_of_errand (h : Path (task.errand conf).run xs (.error e)) :
    e.Malformed ∨ task.ChangesMembers ∧ task.Blank ∧ ∃ option, e = .missingInput option := by
  cases task with
  | info => cases (Script.path_act_pure_iff.mp h).2
  | elect address? =>
    refine .inl ?_
    rcases Script.path_act_bind_iff.mp h with ⟨_, target, _, -, hsettle, -⟩ | ⟨_, he, ⟨⟩⟩
    case inr => exact malformed_of_readTarget (Script.path_ofExcept_iff.mp he).2.symm
    rcases Script.path_act_bind_iff.mp hsettle with ⟨_, settle, _, -, htimeout, -⟩ | ⟨_, he, ⟨⟩⟩
    case inr => exact malformed_of_readDuration he
    rcases Script.path_act_bind_iff.mp htimeout with ⟨_, timeout, _, -, hlead, -⟩ | ⟨_, he, ⟨⟩⟩
    case inr => exact malformed_of_readDuration he
    cases (Script.path_act_pure_iff.mp hlead).2
  | quorumAdd values =>
    exact (error_of_values malformed_of_readAddress h).imp_right fun hblank => ⟨trivial, hblank⟩
  | quorumRemove values =>
    exact (error_of_values malformed_of_readAddress h).imp_right fun hblank => ⟨trivial, hblank⟩
  | setPriority values =>
    exact (error_of_values malformed_of_readPair h).imp_right fun hblank => ⟨trivial, hblank⟩

/-- A list option that is given nothing but blanks is an error, and nobody is asked. -/
theorem errand_of_blank (htask : task.ChangesMembers) (hblank : task.Blank)
    {read : Except AdminError Errand} (h : Path (task.errand conf).run xs read) :
    xs = [] ∧ ∃ option, read = .error (.missingInput option) := by
  cases task with
  | info => exact htask.elim
  | elect address? => exact htask.elim
  | quorumAdd values => exact error_of_blank_values hblank h
  | quorumRemove values => exact error_of_blank_values hblank h
  | setPriority values => exact error_of_blank_values hblank h

end

end RaftAdmin
