import Mathlib.Data.List.Forall2
import RaftAdmin.Error
import RaftAdmin.Proofs.Peer.Address
import RaftAdmin.Proofs.Text.Split

/-!
# Addresses in lists

An operator lists addresses with commas between them. An address may be read from a text of its own
and yet be none that a list can name, since a host may hold anything but a list is cut at every
comma.

## What is proved

* `mapM_eq_ok_iff_forall₂`, `exists_mem_of_mapM_error` — a list is read entry by entry.
* `nameable_iff` — an address can be named in a list if it is legible and its host holds no comma.
* **`nameable_iff_exists`** — an address that some list names is named by its own text.
-/

namespace RaftAdmin

/-! ### Reading entry by entry -/

section

variable {α β : Type} {read : α → Except AdminError β} {a : α} {as : List α} {e : AdminError}

theorem mapM_cons_eq_ok_iff {bs : List β} :
    (a :: as).mapM read = .ok bs ↔
      ∃ b bs', read a = .ok b ∧ as.mapM read = .ok bs' ∧ bs = b :: bs' := by
  rw [List.mapM_cons]
  cases read a with
  | error e => simp [bind, Except.bind]
  | ok b => cases as.mapM read <;> simp [bind, Except.bind, pure, Except.pure, eq_comm]

/-- The first entry that cannot be read is the error. -/
theorem mapM_cons_eq_error_iff :
    (a :: as).mapM read = .error e ↔
      read a = .error e ∨ ∃ b, read a = .ok b ∧ as.mapM read = .error e := by
  rw [List.mapM_cons]
  cases read a with
  | error e => simp [bind, Except.bind]
  | ok b => cases as.mapM read <;> simp [bind, Except.bind, pure, Except.pure]

/-- A list that cannot be read has an entry that cannot be read. -/
theorem exists_mem_of_mapM_error (h : as.mapM read = .error e) : ∃ a ∈ as, read a = .error e := by
  induction as with
  | nil => cases h
  | cons a as ih =>
    rcases mapM_cons_eq_error_iff.mp h with hread | ⟨b, -, hrest⟩
    · exact ⟨a, List.mem_cons_self, hread⟩
    · obtain ⟨a', ha', hread⟩ := ih hrest
      exact ⟨a', List.mem_cons_of_mem a ha', hread⟩

/-- A list that is read as nothing is empty. -/
theorem eq_nil_of_mapM_ok (h : as.mapM read = .ok []) : as = [] := by
  cases as with
  | nil => rfl
  | cons a as =>
    obtain ⟨b, bs, -, -, hne⟩ := mapM_cons_eq_ok_iff.mp h
    cases hne

/-- A list is read entry by entry. -/
theorem mapM_eq_ok_iff_forall₂ {bs : List β} :
    as.mapM read = .ok bs ↔ List.Forall₂ (fun a b => read a = .ok b) as bs := by
  induction as generalizing bs with
  | nil => simp [pure, Except.pure, eq_comm]
  | cons a as ih =>
    rw [mapM_cons_eq_ok_iff, List.forall₂_cons_left_iff]
    simp only [ih, exists_and_left]

/-- What is in a list was read from an entry. -/
theorem exists_mem_of_mapM_ok {b : β} {bs : List β} (h : as.mapM read = .ok bs) (hb : b ∈ bs) :
    ∃ a ∈ as, read a = .ok b := by
  induction as generalizing bs with
  | nil =>
    obtain rfl := Except.ok.inj h
    cases hb
  | cons a as ih =>
    obtain ⟨b', bs', hread, hrest, rfl⟩ := mapM_cons_eq_ok_iff.mp h
    rcases List.mem_cons.mp hb with rfl | hb
    · exact ⟨a, List.mem_cons_self, hread⟩
    · obtain ⟨a', ha', hread'⟩ := ih hrest hb
      exact ⟨a', List.mem_cons_of_mem a ha', hread'⟩

end

/-! ### Addresses -/

variable {a : PeerAddress} {s : String}

theorem readAddress_eq_ok_iff : readAddress s = .ok a ↔ PeerAddress.read s = .ok a := by
  unfold readAddress
  cases PeerAddress.read s <;> simp

namespace PeerAddress

/-- What is in a host was in the text that the address was read from. -/
theorem notMem_of_read {c : Char} (hc : Text.isBlank c = false) (h : read s = .ok a)
    (hs : c ∉ s.toList) : c ∉ a.host.toList := by
  obtain ⟨port, htrim, -⟩ := read_eq_ok_iff.mp h
  refine fun hmem => hs ((Text.mem_trimChars hc).mp ?_)
  rw [htrim]
  exact List.mem_append_left _ hmem

/-- What a list names is legible, and its host holds no comma. -/
theorem legible_of_mem_readPeerList {list : String} {as : List PeerAddress}
    (hread : readPeerList list = .ok as) (ha : a ∈ as) : a.Legible ∧ ',' ∉ a.host.toList := by
  obtain ⟨part, hpart, hread⟩ := exists_mem_of_mapM_ok hread ha
  have hread := readAddress_eq_ok_iff.mp hread
  have hcomma := Text.notMem_of_mem_nonblankParts (by decide) hpart
  exact ⟨legible_of_read hread, notMem_of_read (by decide) hread hcomma⟩

/-- The text of the address, taken as a list, names this address and no other. -/
def Nameable (a : PeerAddress) : Prop := readPeerList a.text = .ok [a]

theorem nameable_iff : a.Nameable ↔ a.Legible ∧ ',' ∉ a.host.toList := by
  constructor
  · exact fun h => legible_of_mem_readPeerList h List.mem_cons_self
  · rintro ⟨hlegible, hcomma⟩
    have hdigits : ',' ∉ Text.digits a.port.toNat := fun hmem =>
      absurd (Text.isDigit_of_mem_digits hmem) (by decide)
    have hparts : Text.nonblankParts ',' a.text = [a.text] :=
      Text.nonblankParts_eq_singleton (by simp [toList_text, hcomma, hdigits])
        (trimChars_text hlegible) (by simp [toList_text])
    rw [Nameable, readPeerList, hparts, mapM_cons_eq_ok_iff]
    exact ⟨a, [], readAddress_eq_ok_iff.mpr (read_text hlegible), rfl, rfl⟩

/-- **What a list can name.** An address that some list names is named by its own text. -/
theorem nameable_iff_exists : a.Nameable ↔ ∃ list as, readPeerList list = .ok as ∧ a ∈ as :=
  ⟨fun h => ⟨a.text, [a], h, List.mem_cons_self⟩,
    fun ⟨_, _, hread, ha⟩ => nameable_iff.mpr (legible_of_mem_readPeerList hread ha)⟩

end PeerAddress

end RaftAdmin
