import RaftAdmin.Proofs.Command.Arguments
import RaftAdmin.Proofs.Text.Spelling

/-!
# Values of list options

A list option may be repeated, and each of its values may hold several parts. An operator may spread
the parts over the values in any way, or put all of them into one value with separators between
them: the same is read, and the same is wrong.

## The model

Whatever the values are, blank parts among them and parts that cannot be read, the parts are taken in
order up to the first that is neither blank nor read (`FirstFault`). An option that is given nothing
but blanks has an error of its own (`ListOption.require`).

## What is proved

* `listParts_joinWith` — values have the parts of the one value that joins them.
* `readParts_eq_error_iff` — reading the parts fails with the error of the first that cannot be
  read, or because there are none.
* **`values_joined`** — addresses and pairs are read from values as from the one value that joins
  them, addresses as from a list of peers.
-/

namespace RaftAdmin

variable {α : Type} {read : String → Except AdminError α} {option : ListOption}
  {part : String} {parts : List String} {e : AdminError}

/-! ### Parts -/

/-- What is read of the values are their parts, trimmed, unless they are blank. -/
theorem listParts_eq (separator : Char) (values : List String) :
    listParts separator values
      = ((values.flatMap (Text.splitAt separator)).map Text.trim).filter (· ≠ "") := by
  rw [List.map_flatMap, List.filter_flatMap]
  exact List.flatMap_congr fun value _ => Text.nonblankParts_eq separator value

/-- Values have the parts of the one value that joins them. -/
theorem listParts_joinWith (separator : Char) (values : List String) :
    listParts separator [Text.joinWith (String.ofList [separator]) values]
      = listParts separator values := by
  rw [listParts, List.flatMap_singleton, Text.nonblankParts_joinWith_eq_flatMap, ← listParts]

/-! ### Reading in order -/

/-- What is read for an option, where reading nothing is an error. -/
def ListOption.require (option : ListOption) :
    Except AdminError (List α) → Except AdminError (List α)
  | .ok [] => .error (.missingInput option.text)
  | result => result

theorem readParts_eq_require : readParts option read parts = option.require (parts.mapM read) := by
  unfold readParts
  cases parts.mapM read with
  | error e => rfl
  | ok as => cases as <;> rfl

theorem require_eq_error_iff {result : Except AdminError (List α)} :
    option.require result = .error e ↔
      result = .error e ∨ result = .ok [] ∧ e = .missingInput option.text := by
  cases result with
  | error e' => simp [ListOption.require]
  | ok as => cases as <;> simp [ListOption.require, eq_comm]

/-- Of the parts, the first that is neither blank nor read has this error. -/
def FirstFault (read : String → Except AdminError α) (parts : List String) (e : AdminError) :
    Prop :=
  ∃ before part after, parts = before ++ part :: after ∧
    (∀ p ∈ before, Text.trim p = "" ∨ ∃ a, read (Text.trim p) = .ok a) ∧
    Text.trim part ≠ "" ∧ read (Text.trim part) = .error e

theorem not_firstFault_nil : ¬ FirstFault read [] e := by
  rintro ⟨before, part, after, hparts, -⟩
  exact List.append_ne_nil_of_right_ne_nil before (List.cons_ne_nil part after) hparts.symm

/-- The first part is at fault, or else it is blank or read and one of the others is at fault. -/
theorem firstFault_cons_iff :
    FirstFault read (part :: parts) e ↔
      (Text.trim part ≠ "" ∧ read (Text.trim part) = .error e) ∨
        (Text.trim part = "" ∨ ∃ a, read (Text.trim part) = .ok a) ∧ FirstFault read parts e := by
  constructor
  · rintro ⟨before, fault, after, hparts, hbefore, hfault⟩
    rcases List.cons_eq_append_iff.mp hparts with ⟨rfl, htail⟩ | ⟨before, rfl, rfl⟩
    · obtain ⟨rfl, rfl⟩ := List.cons.inj htail
      exact .inl hfault
    · obtain ⟨hpart, hbefore⟩ := List.forall_mem_cons.mp hbefore
      exact .inr ⟨hpart, before, fault, after, rfl, hbefore, hfault⟩
  · rintro (hfault | ⟨hpart, before, fault, after, rfl, hbefore, hfault⟩)
    · exact ⟨[], part, parts, rfl, nofun, hfault⟩
    · exact ⟨part :: before, fault, after, rfl, List.forall_mem_cons.mpr ⟨hpart, hbefore⟩, hfault⟩

/-- Parts cannot be read exactly if one of them is at fault, and then with the error of the first. -/
theorem mapM_nonblank_eq_error_iff :
    ((parts.map Text.trim).filter (· ≠ "")).mapM read = .error e ↔ FirstFault read parts e := by
  induction parts with
  | nil => exact iff_of_false nofun not_firstFault_nil
  | cons part parts ih =>
    rw [List.map_cons, firstFault_cons_iff]
    by_cases hblank : Text.trim part = ""
    · rw [List.filter_cons_of_neg (by simpa using hblank), ih]
      simp [hblank]
    · rw [List.filter_cons_of_pos (by simpa using hblank), mapM_cons_eq_error_iff, ih]
      simp [hblank]

/-- The values of an option cannot be read exactly if a part is at fault, and then with the error of
the first, or if all parts are blank. -/
theorem readParts_eq_error_iff {separator : Char} {values : List String} :
    readParts option read (listParts separator values) = .error e ↔
      FirstFault read (values.flatMap (Text.splitAt separator)) e ∨
        (∀ part ∈ values.flatMap (Text.splitAt separator), Text.trim part = "") ∧
          e = .missingInput option.text := by
  have hnone : (listParts separator values).mapM read = .ok [] ↔ listParts separator values = [] :=
    ⟨eq_nil_of_mapM_ok, fun hnil => by rw [hnil]; rfl⟩
  rw [readParts_eq_require, require_eq_error_iff, hnone, listParts_eq_nil_iff, listParts_eq,
    mapM_nonblank_eq_error_iff]

/-- **How values are grouped makes no difference.** For any values of a list option, the addresses in
them are read as from the one value that joins them with commas, which is how a list of peers is
read, but that naming none is an error; and pairs are read as from the one value that joins the
values with semicolons. Either fails exactly if a part is neither blank nor read, and then with the
error of the first such part, or if all parts are blank. -/
theorem values_joined (values : List String) :
    (∀ option : ListOption,
      readAddresses option values = readAddresses option [Text.joinWith "," values] ∧
      readAddresses option [Text.joinWith "," values]
        = option.require (readPeerList (Text.joinWith "," values)) ∧
      ∀ e, readAddresses option values = .error e ↔
        FirstFault readAddress (values.flatMap (Text.splitAt ',')) e ∨
          (∀ part ∈ values.flatMap (Text.splitAt ','), Text.trim part = "") ∧
            e = .missingInput option.text) ∧
    readPairs values = readPairs [Text.joinWith ";" values] ∧
    ∀ e, readPairs values = .error e ↔
      FirstFault readPair (values.flatMap (Text.splitAt ';')) e ∨
        (∀ part ∈ values.flatMap (Text.splitAt ';'), Text.trim part = "") ∧
          e = .missingInput ListOption.addressPriority.text := by
  have hcommas : listParts ',' [Text.joinWith "," values] = listParts ',' values :=
    listParts_joinWith ',' values
  have hsemicolons : listParts ';' [Text.joinWith ";" values] = listParts ';' values :=
    listParts_joinWith ';' values
  refine ⟨fun option => ⟨?_, ?_, fun e => readParts_eq_error_iff⟩, ?_, fun e =>
    readParts_eq_error_iff⟩
  · rw [readAddresses, readAddresses, hcommas]
  · rw [readAddresses, readParts_eq_require, listParts, List.flatMap_singleton, readPeerList]
  · rw [readPairs, readPairs, hsemicolons]

/-- Blank parts are passed over, and what comes after the first part at fault is not looked at. -/
example :
    readAddresses .addPeer ["h1:1, ,", "", " h2:x,h3", ":4"]
      = .error (.invalidAddress "h2:x" "port is not a number between 0 and 65535") := by
  rfl

end RaftAdmin
