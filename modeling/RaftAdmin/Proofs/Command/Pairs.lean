import RaftAdmin.Proofs.Command.Priority

/-!
# Pairs and commas

A pair of an address and a priority is cut at its last comma, and the address at its last colon. The
text before these is the host, and nothing more is asked of it. So two pairs with a comma between
them, where a semicolon is meant, are read as one.

## The model

A list of peers is cut at every comma, so that an address whose host holds one is not `Nameable`.
From a pair it is read all the same, if the part of the value has more commas than the one before
the priority.

## What is proved

* `exists_readPairs_iff` — the addresses that pairs can name.
* `names_joined` — a pair with any text before it, and a comma between them, is one pair.
* **`readPairs_nameable`** — a list of peers can name the address of a pair exactly if the part that
  it is read from holds one comma.
* **`exists_strange_pair`** — two pairs with a comma between them are read as one. The host in it is
  that of nobody, so the command succeeds and changes nothing.
-/

namespace RaftAdmin

variable {pairs : List (PeerAddress × UInt32)} {values : List String} {part : String}
  {pair : PeerAddress × UInt32} {a : PeerAddress}

/-! ### Parts -/

/-- All commas of a part but the last are in the host. -/
theorem count_comma_of_names (h : Names part pair) :
    part.toList.count ',' = pair.1.host.toList.count ',' + 1 := by
  obtain ⟨address, priority, hpart, hpriority, hread, -⟩ := h
  obtain ⟨port, htrim, -, -, hport⟩ := PeerAddress.read_eq_ok_iff.mp hread
  rw [String.toList_ofList] at htrim
  -- neither the blanks around the address nor its port hold a comma
  have hportcomma : ',' ∉ port := Text.notMem_of_readNat? hport (by decide) (by decide)
  have haddress : address.count ',' = pair.1.host.toList.count ',' := by
    rw [← Text.count_trimChars (by decide) address, htrim, List.count_append,
      List.count_cons_of_ne (by decide), List.count_eq_zero.mpr hportcomma, Nat.add_zero]
  rw [hpart, List.count_append, List.count_cons_self, List.count_eq_zero.mpr hpriority, haddress]

theorem legible_of_names (h : Names part pair) : pair.1.Legible := by
  obtain ⟨_, _, -, -, hread, -⟩ := h
  exact PeerAddress.legible_of_read hread

theorem nameable_iff_of_names (h : Names part pair) :
    pair.1.Nameable ↔ part.toList.count ',' = 1 := by
  rw [PeerAddress.nameable_iff, count_comma_of_names h, Nat.add_eq_right, List.count_eq_zero]
  exact and_iff_right (legible_of_names h)

/-! ### What pairs can name -/

/-- The form `HOST:PORT,PRIORITY` of a pair. -/
def pairText (a : PeerAddress) (n : UInt32) : String := a.text ++ "," ++ Text.numeral n.toNat

theorem toList_pairText (a : PeerAddress) (n : UInt32) :
    (pairText a n).toList = a.text.toList ++ ',' :: Text.digits n.toNat := by
  simp [pairText, Text.numeral]

/-- The text of a pair with a legible address is read as this pair. -/
theorem names_pairText (h : a.Legible) (n : UInt32) : Names (pairText a n) (a, n) := by
  refine ⟨a.text.toList, Text.digits n.toNat, toList_pairText a n, fun hmem => ?_, ?_, ?_⟩
  · exact absurd (Text.isDigit_of_mem_digits hmem) (by decide)
  · rw [String.ofList_toList]
    exact PeerAddress.read_text h
  · rw [← List.nil_append (Text.digits n.toNat), Text.trimChars_append_digits (by simp)]
    exact Text.readNat?_digits n.toNat_lt

/-- A pair with any text before it, and a comma between them, is one pair. -/
theorem names_joined {front : String} {c : Char} {cs : List Char} (hfront : front.toList = c :: cs)
    (hc : Text.isBlank c = false) (a : PeerAddress) (n : UInt32) :
    Names (front ++ "," ++ pairText a n) (⟨front ++ "," ++ a.host, a.port⟩, n) := by
  have hlegible : PeerAddress.Legible ⟨front ++ "," ++ a.host, a.port⟩ :=
    ⟨c, cs ++ ',' :: a.host.toList, by simp [hfront], hc⟩
  have htext : pairText ⟨front ++ "," ++ a.host, a.port⟩ n = front ++ "," ++ pairText a n := by
    simp only [pairText, PeerAddress.text, String.append_assoc]
  rw [← htext]
  exact names_pairText hlegible n

/-- The text of a pair is the only part of the value that it is. -/
theorem listParts_pairText (h : a.Legible) (hsemicolon : ';' ∉ a.host.toList) (n : UInt32) :
    listParts ';' [pairText a n] = [pairText a n] := by
  have hdigits (n : Nat) : ';' ∉ Text.digits n := fun hmem =>
    absurd (Text.isDigit_of_mem_digits hmem) (by decide)
  obtain ⟨c, cs, hhost, hc⟩ := h
  rw [listParts, List.flatMap_singleton]
  refine Text.nonblankParts_eq_singleton ?_ ?_ (by simp [toList_pairText])
  · simp [toList_pairText, PeerAddress.toList_text, hsemicolon, hdigits]
  · rw [toList_pairText, List.append_cons]
    exact Text.trimChars_append_digits (by simpa [PeerAddress.toList_text, hhost] using hc) _

/-- Pairs can name every address that can be read, unless a semicolon is in its host. -/
theorem exists_readPairs_iff :
    (∃ values pairs n, readPairs values = .ok pairs ∧ (a, n) ∈ pairs) ↔
      a.Legible ∧ ';' ∉ a.host.toList := by
  constructor
  · rintro ⟨values, pairs, n, hread, hmem⟩
    obtain ⟨part, hpart, hpair⟩ := exists_mem_of_mapM_ok (readParts_eq_ok_iff.mp hread).1 hmem
    obtain ⟨value, -, hpart⟩ := List.mem_flatMap.mp hpart
    have hsemicolon := Text.notMem_of_mem_nonblankParts (by decide) hpart
    obtain ⟨address, priority, hpart, -, hread, -⟩ := readPair_eq_ok_iff.mp hpair
    refine ⟨PeerAddress.legible_of_read hread,
      PeerAddress.notMem_of_read (by decide) hread fun hmem => hsemicolon ?_⟩
    rw [String.toList_ofList] at hmem
    rw [hpart]
    exact List.mem_append_left _ hmem
  · rintro ⟨hlegible, hsemicolon⟩
    refine ⟨[pairText a 0], [(a, 0)], 0, ?_, List.mem_cons_self⟩
    rw [readPairs_eq_ok_iff, listParts_pairText hlegible hsemicolon]
    exact ⟨.cons (names_pairText hlegible 0) .nil, List.cons_ne_nil _ _⟩

/-- **Where pairs and lists of peers agree.** An address that is read from a pair is legible, and
its host holds all commas of its part but the last of them. A list of peers can name the address
exactly if this leaves none, so that the part holds one comma. -/
theorem readPairs_nameable (hread : readPairs values = .ok pairs) :
    List.Forall₂ (fun part pair => pair.1.Legible ∧
        part.toList.count ',' = pair.1.host.toList.count ',' + 1 ∧
        (pair.1.Nameable ↔ part.toList.count ',' = 1))
      (listParts ';' values) pairs :=
  (readPairs_eq_ok_iff.mp hread).1.imp fun _ _ hnames =>
    ⟨legible_of_names hnames, count_comma_of_names hnames, nameable_iff_of_names hnames⟩

/-- Three pairs. A comma stands between the first two, and a semicolon before the third. -/
def joinedValues : List String := ["h1:9870,3,h2:9870,5; h3:9870,4"]

/-- A list of peers can name the address of the third pair, but not what the first two are. -/
theorem readPairs_nameable_joined :
    readPairs joinedValues = .ok [(⟨"h1:9870,3,h2", 9870⟩, 5), (⟨"h3", 9870⟩, 4)] ∧
      ¬ PeerAddress.Nameable ⟨"h1:9870,3,h2", 9870⟩ ∧ PeerAddress.Nameable ⟨"h3", 9870⟩ := by
  have hread : readPairs joinedValues
      = .ok [(⟨"h1:9870,3,h2", 9870⟩, 5), (⟨"h3", 9870⟩, 4)] := by rfl
  have hparts : listParts ';' joinedValues = ["h1:9870,3,h2:9870,5", "h3:9870,4"] := by rfl
  have hpairs := readPairs_nameable hread
  simp only [hparts, List.forall₂_cons, List.forall₂_nil_left_iff, and_true] at hpairs
  obtain ⟨⟨-, -, hjoined⟩, -, -, hlone⟩ := hpairs
  exact ⟨hread, fun h => absurd (hjoined.mp h) (by decide), hlone.mpr (by decide)⟩

/-- **Two pairs that are read as one.** The first two members are to get priorities, but a comma
stands between the pairs. They are read as one pair whose host no list of peers can name, no member
listens there, and the command succeeds with what it found. -/
theorem exists_strange_pair :
    ∃ values pairs, readPairs values = .ok pairs ∧ (∃ pair ∈ pairs, ¬ pair.1.Nameable) ∧
      unlikeOutcome (.setPriority values) = (exitOk, [(.bootstrap, unlike.peers)]) := by
  refine ⟨["h1:9870,3,h2:9870,5"], [(⟨"h1:9870,3,h2", 9870⟩, 5)], by rfl, ?_, by decide +kernel⟩
  refine ⟨_, List.mem_cons_self, fun h => ?_⟩
  exact absurd (PeerAddress.nameable_iff.mp h).2 (by decide)

end RaftAdmin
