import RaftAdmin.Proofs.Command.Arguments
import RaftAdmin.Proofs.Command.Denotation
import RaftAdmin.Proofs.Command.Membership
import RaftAdmin.Proofs.Text.Numeral

/-!
# Priorities

A command that sets priorities is given pairs of an address and a priority, spread over the values
of an option that may be repeated. It must set the priorities that are asked for, and leave all else
about the members of its group as it is.

## The model

`Names` says what a part of a value means, and `Ranked` what is to become of a member. An address
may be spelled in several ways, may be named more than once, and may be that of several members or
of none.

## What is proved

* `readPairs_eq_ok_iff` — values are read part by part, and each part is cut at its last comma.
* `ranked_prioritize` — the last pair that has the address of a member counts.
* `prioritize_filter` — a pair that has the address of no member has no effect.
* **`setPriority_ranks`** — what setting priorities makes of the members of a group.
-/

namespace RaftAdmin

variable {pairs : List (PeerAddress × UInt32)} {values : List String} {m p : Peer}

/-! ### Reading pairs -/

/-- A part of a value names an address and a priority, which its last comma separates. -/
def Names (part : String) (pair : PeerAddress × UInt32) : Prop :=
  ∃ address priority, part.toList = address ++ ',' :: priority ∧ ',' ∉ priority ∧
    PeerAddress.read (String.ofList address) = .ok pair.1 ∧
    Text.readNat? UInt32.size (Text.trimChars priority) = some pair.2.toNat

theorem readPair_eq_ok_iff {part : String} {pair : PeerAddress × UInt32} :
    readPair part = .ok pair ↔ Names part pair := by
  unfold readPair Names
  constructor
  · intro h
    cases hcut : Text.cutLast (· == ',') part.toList with
    | none => simp [hcut] at h
    | some cut =>
      obtain ⟨address, priority⟩ := cut
      obtain ⟨comma, hcomma, hpart⟩ := Text.exists_of_cutLast hcut
      obtain rfl : comma = ',' := by simpa using hcomma
      have hlast : ',' ∉ priority := fun hmem => by
        simpa using Text.not_sep_of_cutLast hcut ',' hmem
      simp only [hcut] at h
      cases hnumber : Text.readNat? UInt32.size (Text.trimChars priority) with
      | none => simp [hnumber] at h
      | some n =>
        simp only [hnumber] at h
        cases hread : readAddress (String.ofList address) with
        | error e => simp [hread] at h
        | ok a =>
          simp only [hread] at h
          obtain rfl := Except.ok.inj h
          have hbound : n < UInt32.size := by
            simpa using (Option.filter_eq_some_iff.mp hnumber).2
          refine ⟨address, priority, hpart, hlast, readAddress_eq_ok_iff.mp hread, ?_⟩
          rw [hnumber, UInt32.toNat_ofNat', Nat.mod_eq_of_lt hbound]
  · rintro ⟨address, priority, hpart, hlast, haddress, hnumber⟩
    have hcut : Text.cutLast (· == ',') part.toList = some (address, priority) := by
      rw [hpart]
      refine Text.cutLast_append (by rfl) fun d hd => ?_
      simpa using fun heq : d = ',' => hlast (heq ▸ hd)
    simp [hcut, hnumber, readAddress_eq_ok_iff.mpr haddress]

/-- Values are read part by part, and there must be some part. -/
theorem readPairs_eq_ok_iff :
    readPairs values = .ok pairs ↔
      List.Forall₂ Names (listParts ';' values) pairs ∧ pairs ≠ [] := by
  rw [readPairs, readParts_eq_ok_iff, mapM_eq_ok_iff_forall₂]
  simp only [readPair_eq_ok_iff]

/-! ### Setting priorities -/

/-- What becomes of a member when pairs set priorities. -/
structure Ranked (pairs : List (PeerAddress × UInt32)) (m p : Peer) : Prop where
  /-- Its id stays. -/
  id : p.id = m.id
  /-- Its address stays. -/
  address : p.address = m.address
  /-- Its priority is that of the last pair that has its address. -/
  named : ∀ before n after, pairs = before ++ (m.address, n) :: after →
    (∀ pair ∈ after, pair.1 ≠ m.address) → p.priority = n
  /-- If no pair has its address, then its priority stays. -/
  unnamed : (∀ pair ∈ pairs, pair.1 ≠ m.address) → p.priority = m.priority

theorem prioritize_address (pairs : List (PeerAddress × UInt32)) (m : Peer) :
    (prioritize pairs m).address = m.address := by
  unfold prioritize
  split <;> rfl

/-- Pairs for other addresses leave a member as it is. -/
theorem prioritize_of_forall_ne (h : ∀ pair ∈ pairs, pair.1 ≠ m.address) :
    prioritize pairs m = m := by
  have hnone : (pairs.reverse.find? fun pair => pair.1 = m.address) = none :=
    List.find?_eq_none.mpr fun pair hpair => by simpa using h pair (List.mem_reverse.mp hpair)
  rw [prioritize, hnone]

/-- The last pair that has the address of a member counts. -/
theorem ranked_prioritize (pairs : List (PeerAddress × UInt32)) (m : Peer) :
    Ranked pairs m (prioritize pairs m) where
  id := prioritize_id pairs m
  address := prioritize_address pairs m
  named before n after hpairs hafter := by
    have haddress := prioritize_address before m
    -- what the pairs before have made of it is overwritten, and those after leave it
    rw [hpairs, List.append_cons, prioritize_append, prioritize_append, prioritize_singleton,
      if_pos haddress, prioritize_of_forall_ne]
    · rfl
    · intro pair hpair
      exact fun hsame => hafter pair hpair (hsame.trans haddress)
  unnamed h := by rw [prioritize_of_forall_ne h]

/-- Pairs that are left out have no effect if they are for other addresses. -/
theorem prioritize_filter {q : PeerAddress × UInt32 → Bool}
    (hq : ∀ pair, pair.1 = m.address → q pair = true) (pairs : List (PeerAddress × UInt32)) :
    prioritize (pairs.filter q) m = prioritize pairs m := by
  have hsame : (fun pair => decide (q pair = true ∧ pair.1 = m.address))
      = fun pair => decide (pair.1 = m.address) := by
    funext pair
    simpa using hq pair
  rw [prioritize, ← List.filter_reverse, List.find?_filter, prioritize]
  simp only [decide_eq_true_eq, hsame]

/-! ### Commands -/

/-- **The members after priorities are set.** A command that sets priorities reads its values part
by part, in order, and makes of the members of its group the same members, with the same ids and
addresses and in the same order. A member has the priority of the last pair that has its address, or
the one that was reported if there is none. Pairs that have the address of no member might as well
be left out. What is made is what the command submits, and what the group has if it is accepted. -/
theorem setPriority_ranks (hread : readPairs values = .ok pairs) (conf : Configuration)
    (request : GroupRequest) :
    List.Forall₂ Names (listParts ';' values) pairs ∧
    Command.Forms ⟨.setPriority values, request⟩ conf
      (fun members => members.map (prioritize pairs)) ∧
    ∀ members : List Peer,
      List.Forall₂ (Ranked pairs) members (members.map (prioritize pairs)) ∧
      members.map (prioritize (pairs.filter fun pair => pair.1 ∈ members.map Peer.address))
        = members.map (prioritize pairs) := by
  have herrand : ListOption.errand .addressPriority values = .ok (.rank pairs) := by
    rw [ListOption.errand, hread]
    rfl
  refine ⟨(readPairs_eq_ok_iff.mp hread).1, forms_of_errand herrand conf request,
    fun members => ⟨?_, List.map_congr_left fun m hm => ?_⟩⟩
  · rw [List.forall₂_map_right_iff, List.forall₂_same]
    exact fun m _ => ranked_prioritize pairs m
  · refine prioritize_filter (fun pair hpair => ?_) pairs
    exact decide_eq_true (hpair ▸ List.mem_map_of_mem hm)

/-- A group of three, of which two are at the same address. -/
def shared : Group :=
  .of .bootstrap [⟨⟨"n1"⟩, ⟨"h1", 9870⟩, 3⟩, .ofAddress ⟨"h2", 9870⟩, ⟨⟨"n3"⟩, ⟨"h1", 9870⟩, 5⟩]

/-- A session over a cluster with this group. -/
def sharedSession : Session Cluster := .start (Cluster.empty.addGroup shared none) .empty none

/-- A request for this group. -/
def sharedRequest : GroupRequest := ⟨some "h2:9870", none, none⟩

/-- What is found for this request. -/
def sharedFound : Except AdminError ResolvedGroup :=
  (Session.run Cluster.connector (Resolution.resolve .empty sharedRequest).run sharedSession).1

theorem exists_sharedFound : ∃ r, sharedFound = .ok r ∧ r.group = shared :=
  exists_found_of_isSome (by decide +kernel)

/-- Values that name the shared address twice, in two spellings, and one where nobody is. -/
def sharedValues : List String := ["h1:09870 , 4 ; h9:9870,8", " h1:+9870,7;", " ; "]

/-- The members of this group after priorities are set. -/
def sharedAfter : Option (List Peer) :=
  let p := Shell.execute .empty ⟨.setPriority sharedValues, sharedRequest⟩
  ((Session.run Cluster.connector p sharedSession).2.cluster.group? .bootstrap).map Group.peers

/-- Both members at the shared address get the priority that is named last. -/
theorem setPriority_ranks_shared :
    sharedAfter = some
      [⟨⟨"n1"⟩, ⟨"h1", 9870⟩, 7⟩, .ofAddress ⟨"h2", 9870⟩, ⟨⟨"n3"⟩, ⟨"h1", 9870⟩, 7⟩] := by
  have hread : readPairs sharedValues
      = .ok [(⟨"h1", 9870⟩, 4), (⟨"h9", 9870⟩, 8), (⟨"h1", 9870⟩, 7)] := by rfl
  obtain ⟨-, hforms, -⟩ := setPriority_ranks hread .empty sharedRequest
  obtain ⟨r, hr, hgroup⟩ := exists_sharedFound
  have hformed := hforms.settles sharedSession r hr
  have hmembers := hformed.members (hformed.accepted.mpr rfl)
  rw [hgroup] at hmembers
  exact hmembers.trans (congrArg some (by decide +kernel))

end RaftAdmin
