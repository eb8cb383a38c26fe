import RaftAdmin.Proofs.Peer.List
import RaftAdmin.Proofs.Text.Spelling

/-!
# Addresses in all their spellings

An address can be written with blanks around it and with a plus sign and zeros in front of its port.
In a list it stands between commas, and some of the entries may be blank. This module says exactly
which texts are read as a given address, and which as a given list.

## The model

A `Spelling` is a way to write addresses, whatever the address is; it carries the proof that what it
puts around an address is blank. An `Entry` of a list is an address in some spelling, or blanks.

## What is proved

* `read_eq_ok_iff_spelling` — an address is read from its spellings and from nothing else.
* `readPeerList_eq_ok_iff` — a list is read from its entries, with commas between them, and from
  nothing else.
* **`spellings_reread`** — an address that was read once is read from its text and from each of its
  spellings, and addresses without commas are read from every list of them.
-/

namespace RaftAdmin.PeerAddress

variable {a : PeerAddress} {as : List PeerAddress} {s : String}

/-! ### One address -/

/-- A way to write addresses. -/
structure Spelling where
  /-- The blanks before the address. -/
  front : List Char
  /-- The blanks after it. -/
  back : List Char
  /-- Whether the port has a plus sign. -/
  plus : Bool
  /-- How many zeros stand in front of the port. -/
  zeros : Nat
  /-- Only blanks stand before the address. -/
  blank_front : ∀ c ∈ front, Text.isBlank c = true
  /-- Only blanks stand after it. -/
  blank_back : ∀ c ∈ back, Text.isBlank c = true

namespace Spelling

/-- The spelling in which the program writes addresses. -/
def plain : Spelling := ⟨[], [], false, 0, nofun, nofun⟩

/-- The address in this spelling. -/
def write (w : Spelling) (a : PeerAddress) : String :=
  String.ofList (w.front ++ (a.host.toList ++ ':' :: Text.longNumeral w.plus w.zeros a.port.toNat)
    ++ w.back)

theorem write_plain (a : PeerAddress) : plain.write a = a.text := by
  rw [← String.toList_inj, toList_text, write, String.toList_ofList]
  exact List.append_nil _

end Spelling

/-- Blanks around an address are not seen. -/
theorem read_trim (s : String) : read (Text.trim s) = read s := by
  rw [read, Text.trim, String.toList_ofList, Text.trimChars_trimChars, ← read]

theorem trimChars_write (w : Spelling) (h : a.Legible) :
    Text.trimChars (w.write a).toList
      = a.host.toList ++ ':' :: Text.longNumeral w.plus w.zeros a.port.toNat := by
  obtain ⟨c, cs, hhost, hc⟩ := h
  have hdigits : a.host.toList ++ ':' :: Text.longNumeral w.plus w.zeros a.port.toNat
      = (a.host.toList ++ ':' :: ((if w.plus then ['+'] else []) ++ List.replicate w.zeros '0'))
        ++ Text.digits a.port.toNat := by
    simp [Text.longNumeral]
  rw [Spelling.write, String.toList_ofList, Text.trimChars_append w.blank_front w.blank_back,
    hdigits]
  exact Text.trimChars_append_digits (by simpa [hhost] using hc) _

/-- An address is read from each of its spellings. -/
theorem read_write (w : Spelling) (h : a.Legible) : read (w.write a) = .ok a := by
  refine read_eq_ok_iff.mpr ⟨_, trimChars_write w h, fun hmem => ?_, ?_, ?_⟩
  · rcases Text.isDigit_or_plus_of_mem_longNumeral hmem with hdigit | hplus
    · exact absurd hdigit (by decide)
    · exact absurd hplus (by decide)
  · obtain ⟨c, cs, hhost, -⟩ := h
    simp [hhost]
  · exact Text.readNat?_eq_some_iff.mpr ⟨a.port.toNat_lt, _, _, rfl⟩

/-- What is read as an address is one of its spellings. -/
theorem exists_spelling (h : read s = .ok a) : ∃ w : Spelling, s = w.write a := by
  obtain ⟨port, htrim, -, -, hport⟩ := read_eq_ok_iff.mp h
  obtain ⟨-, plus, zeros, rfl⟩ := Text.readNat?_eq_some_iff.mp hport
  obtain ⟨front, back, hfront, hback, hs⟩ := Text.exists_blanks s.toList
  refine ⟨⟨front, back, plus, zeros, hfront, hback⟩, ?_⟩
  rw [Spelling.write, ← htrim, ← hs, String.ofList_toList]

/-- An address is read from its spellings and from nothing else. -/
theorem read_eq_ok_iff_spelling : read s = .ok a ↔ a.Legible ∧ ∃ w : Spelling, s = w.write a :=
  ⟨fun h => ⟨legible_of_read h, exists_spelling h⟩, fun ⟨h, w, hs⟩ => hs ▸ read_write w h⟩

/-! ### Lists -/

/-- An entry of a list. -/
inductive Entry where
  /-- Blanks, or nothing at all. -/
  | blank (cs : List Char) (h : ∀ c ∈ cs, Text.isBlank c = true)
  /-- An address in some spelling. -/
  | address (a : PeerAddress) (w : Spelling)

namespace Entry

/-- The text of the entry. -/
def text : Entry → String
  | blank cs _ => String.ofList cs
  | address a w => w.write a

/-- The address in the entry. -/
def address? : Entry → Option PeerAddress
  | blank _ _ => none
  | address a _ => some a

theorem trim_blank {cs : List Char} (h : ∀ c ∈ cs, Text.isBlank c = true) :
    Text.trim (blank cs h).text = "" := by
  rw [Text.trim, text, String.toList_ofList, Text.trimChars_eq_nil_iff.mpr h]

theorem trim_address (w : Spelling) (h : a.Legible) : Text.trim (address a w).text ≠ "" := by
  rw [Text.trim, text, trimChars_write w h, ne_eq, String.ofList_eq_empty_iff,
    List.append_eq_nil_iff]
  exact fun hnil => List.cons_ne_nil _ _ hnil.2

/-- An entry holds a comma only if it has an address whose host does. -/
theorem comma_notMem {e : Entry} (h : ∀ a, e.address? = some a → ',' ∉ a.host.toList) :
    ',' ∉ e.text.toList := by
  have hblank {cs : List Char} (hcs : ∀ c ∈ cs, Text.isBlank c = true) : ',' ∉ cs := fun hmem =>
    absurd (hcs ',' hmem) (by decide)
  cases e with
  | blank cs hcs => simpa [text] using hblank hcs
  | address a w =>
    have hport : ',' ∉ Text.longNumeral w.plus w.zeros a.port.toNat := fun hmem =>
      (Text.isDigit_or_plus_of_mem_longNumeral hmem).elim (absurd · (by decide))
        (absurd · (by decide))
    simp [text, Spelling.write, hblank w.blank_front, hblank w.blank_back, h a rfl, hport]

end Entry

/-- The entries that are not blank are read as the addresses in them. -/
theorem mapM_readAddress_entries {entries : List Entry}
    (h : ∀ a ∈ entries.filterMap Entry.address?, a.Legible) :
    (((entries.map Entry.text).map Text.trim).filter (· ≠ "")).mapM readAddress
      = .ok (entries.filterMap Entry.address?) := by
  induction entries with
  | nil => rfl
  | cons e entries ih =>
    cases e with
    | blank cs hcs =>
      have hrest := ih h
      rwa [List.map_cons, List.map_cons, List.filter_cons_of_neg (by simp [Entry.trim_blank hcs])]
    | address a w =>
      obtain ⟨ha, has⟩ : a.Legible ∧ ∀ b ∈ entries.filterMap Entry.address?, b.Legible :=
        List.forall_mem_cons.mp h
      rw [List.map_cons, List.map_cons,
        List.filter_cons_of_pos (by simpa using Entry.trim_address w ha), mapM_cons_eq_ok_iff]
      refine ⟨a, _, readAddress_eq_ok_iff.mpr ?_, ih has, rfl⟩
      rw [read_trim]
      exact read_write w ha

/-- Parts that are read as addresses, except for those that are blank, are entries with them. -/
theorem exists_entries {parts : List String}
    (h : ((parts.map Text.trim).filter (· ≠ "")).mapM readAddress = .ok as) :
    ∃ entries : List Entry, entries.map Entry.text = parts ∧
      entries.filterMap Entry.address? = as := by
  induction parts generalizing as with
  | nil => exact ⟨[], rfl, Except.ok.inj h⟩
  | cons part parts ih =>
    rw [List.map_cons] at h
    by_cases hblank : Text.trim part = ""
    · rw [List.filter_cons_of_neg (by simpa using hblank)] at h
      obtain ⟨entries, rfl, rfl⟩ := ih h
      have hpart : ∀ c ∈ part.toList, Text.isBlank c = true :=
        Text.trimChars_eq_nil_iff.mp (String.ofList_eq_empty_iff.mp hblank)
      exact ⟨.blank part.toList hpart :: entries,
        congrArg (· :: _) String.ofList_toList, rfl⟩
    · rw [List.filter_cons_of_pos (by simpa using hblank)] at h
      obtain ⟨a, as, hread, hrest, rfl⟩ := mapM_cons_eq_ok_iff.mp h
      obtain ⟨entries, rfl, rfl⟩ := ih hrest
      rw [readAddress_eq_ok_iff, read_trim] at hread
      obtain ⟨w, rfl⟩ := exists_spelling hread
      exact ⟨.address a w :: entries, rfl, rfl⟩

/-- Addresses that a list can name are read from every list of them. -/
theorem readPeerList_entries {entries : List Entry}
    (h : ∀ a ∈ entries.filterMap Entry.address?, a.Nameable) :
    readPeerList (Text.joinWith "," (entries.map Entry.text))
      = .ok (entries.filterMap Entry.address?) := by
  have hcomma : ∀ part ∈ entries.map Entry.text, ',' ∉ part.toList :=
    List.forall_mem_map.mpr fun e he => Entry.comma_notMem fun a ha =>
      (nameable_iff.mp (h a (List.mem_filterMap.mpr ⟨e, he, ha⟩))).2
  have hparts : Text.nonblankParts ',' (Text.joinWith "," (entries.map Entry.text)) = _ :=
    Text.nonblankParts_joinWith hcomma
  rw [readPeerList, hparts]
  exact mapM_readAddress_entries fun a ha => (nameable_iff.mp (h a ha)).1

/-- A list is read from its entries, with commas between them, and from nothing else. -/
theorem readPeerList_eq_ok_iff :
    readPeerList s = .ok as ↔ (∀ a ∈ as, a.Nameable) ∧ ∃ entries : List Entry,
      entries.filterMap Entry.address? = as ∧ s = Text.joinWith "," (entries.map Entry.text) := by
  constructor
  · intro h
    refine ⟨fun a ha => nameable_iff.mpr (legible_of_mem_readPeerList h ha), ?_⟩
    have hjoin : Text.joinWith "," (Text.splitAt ',' s) = s := Text.joinWith_splitAt ',' s
    have hcomma : ∀ part ∈ Text.splitAt ',' s, ',' ∉ part.toList := by
      refine List.forall_mem_map.mpr fun part hpart hmem => ?_
      rw [String.toList_ofList] at hmem
      simpa using Text.not_sep_of_mem_splitBy hpart ',' hmem
    have hparts : Text.nonblankParts ',' (Text.joinWith "," (Text.splitAt ',' s)) = _ :=
      Text.nonblankParts_joinWith hcomma
    rw [hjoin] at hparts
    rw [readPeerList, hparts] at h
    obtain ⟨entries, hentries, has⟩ := exists_entries h
    exact ⟨entries, has, by rw [hentries, hjoin]⟩
  · rintro ⟨hnameable, entries, rfl, rfl⟩
    exact readPeerList_entries hnameable

/-- **Addresses that are read again.** A text that is read as an address is one of its spellings.
From each of these, and from the text of the address, the same address is read. Addresses that were
read once, and whose hosts hold no comma, are read in order from every list of them, whatever their
spellings are and whichever blank entries stand before, between and after them. -/
theorem spellings_reread :
    (∀ s a, readAddress s = .ok a →
      (∃ w : Spelling, s = w.write a) ∧ readAddress a.text = .ok a ∧
        ∀ w : Spelling, readAddress (w.write a) = .ok a) ∧
    ∀ (as : List PeerAddress) (entries : List Entry),
      (∀ a ∈ as, (∃ s, readAddress s = .ok a) ∧ ',' ∉ a.host.toList) →
      entries.filterMap Entry.address? = as →
      readPeerList (Text.joinWith "," (entries.map Entry.text)) = .ok as := by
  simp only [readAddress_eq_ok_iff]
  refine ⟨fun s a hread => ?_, fun as entries has hentries => ?_⟩
  · have hwrite : ∀ w : Spelling, read (w.write a) = .ok a := fun w =>
      read_write w (legible_of_read hread)
    exact ⟨exists_spelling hread, Spelling.write_plain a ▸ hwrite .plain, hwrite⟩
  · subst hentries
    refine readPeerList_entries fun a ha => nameable_iff.mpr ?_
    exact ⟨legible_iff.mpr (has a ha).1, (has a ha).2⟩

/-- Blanks of several kinds around, and a port with a plus sign and a zero. -/
def padded : Spelling :=
  ⟨[' ', '\t'], ['\u00a0'], true, 1, List.all_eq_true.mp rfl, List.all_eq_true.mp rfl⟩

/-- An address whose host has colons and a blank is read again, and from a list that starts with
nothing, repeats another address and has a line of blanks. -/
theorem spellings_reread_padded :
    readAddress "[::1] x:19200" = .ok ⟨"[::1] x", 19200⟩ ∧
      readAddress " \t[::1] x:+019200\u00a0" = .ok ⟨"[::1] x", 19200⟩ ∧
      readPeerList ",h1:9870, \th1:+09870\u00a0,\n ,[::1] x:19200"
        = .ok [⟨"h1", 9870⟩, ⟨"h1", 9870⟩, ⟨"[::1] x", 19200⟩] := by
  have hread : readAddress "[::1] x:19200" = .ok ⟨"[::1] x", 19200⟩ := by rfl
  have hlone : readAddress "h1:9870" = .ok ⟨"h1", 9870⟩ := by rfl
  refine ⟨hread, (spellings_reread.1 _ _ hread).2.2 padded, ?_⟩
  have hlist := spellings_reread.2 [⟨"h1", 9870⟩, ⟨"h1", 9870⟩, ⟨"[::1] x", 19200⟩]
    [.blank [] nofun, .address ⟨"h1", 9870⟩ .plain, .address ⟨"h1", 9870⟩ padded,
      .blank ['\n', ' '] (List.all_eq_true.mp rfl), .address ⟨"[::1] x", 19200⟩ .plain] ?_ rfl
  · exact hlist
  · simp only [List.forall_mem_cons, List.not_mem_nil, false_imp_iff, implies_true, and_true]
    exact ⟨⟨⟨_, hlone⟩, by decide⟩, ⟨⟨_, hlone⟩, by decide⟩, ⟨_, hread⟩, by decide⟩

end RaftAdmin.PeerAddress
