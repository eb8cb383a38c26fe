import Mathlib.Data.List.Induction
import Mathlib.Data.List.Nodup
import RaftAdmin.Group.Basic

/-!
# Peers named by their addresses

An operator names peers by address only. The id derived from an address tells host and port apart,
whatever the host looks like, so that peers made from addresses are as distinct as these.

## What is proved

* `PeerId.ofAddress_injective` — no two addresses have the same derived id.
* `firstById_map_ofAddress` — of the peers at some addresses, each is kept once, where its address
  occurs first.
* `Group.of_peers` — a group keeps the members of a group.
* **`derived_ids_identify`** — derived ids tell addresses apart, and a group of peers that are made
  from addresses has one of them for each address, in the order of first occurrence.
-/

namespace RaftAdmin

/-! ### Derived ids -/

namespace Text

theorem digits_injective : Function.Injective digits := fun m n h => by
  have hvalue := congrArg (fun cs => Nat.ofDigitChars 10 cs 0) h
  simpa [digits] using hvalue

theorem underscore_notMem_digits (n : Nat) : '_' ∉ digits n := fun h =>
  absurd (Nat.isDigit_of_mem_toDigits (by decide) (by decide) h) (by decide)

/-- The last underscore of a text parts what precedes it from the numeral after it. -/
theorem append_digits_inj {xs ys : List Char} {m n : Nat}
    (h : xs ++ '_' :: digits m = ys ++ '_' :: digits n) : xs = ys ∧ m = n := by
  rcases List.append_eq_append_iff.mp h with ⟨as, rfl, htail⟩ | ⟨as, rfl, htail⟩ <;>
    rcases as with _ | ⟨a, as⟩
  · exact ⟨by simp, digits_injective (List.cons.inj htail).2⟩
  · refine absurd ?_ (underscore_notMem_digits m)
    simp [(List.cons.inj htail).2]
  · exact ⟨by simp, digits_injective (List.cons.inj htail).2.symm⟩
  · refine absurd ?_ (underscore_notMem_digits n)
    simp [(List.cons.inj htail).2]

end Text

theorem PeerId.ofAddress_injective : Function.Injective PeerId.ofAddress := fun a b h => by
  have htext : a.host.toList ++ '_' :: Text.digits a.port.toNat
      = b.host.toList ++ '_' :: Text.digits b.port.toNat := by
    simpa [ofAddress, Text.numeral] using congrArg (fun id => id.text.toList) h
  obtain ⟨hhost, hport⟩ := Text.append_digits_inj htext
  rw [String.toList_inj] at hhost
  rw [UInt16.toNat_inj] at hport
  cases a
  cases b
  exact (PeerAddress.mk.injEq ..).mpr ⟨hhost, hport⟩

/-! ### Peers with the same id -/

/-- Peers are kept or not by their ids, before or after those that repeat an id are dropped. -/
theorem firstById_filter (q : PeerId → Bool) (ps : List Peer) :
    firstById (ps.filter fun p => q p.id) = (firstById ps).filter fun p => q p.id := by
  induction ps with
  | nil => rfl
  | cons p ps ih =>
    cases hp : q p.id with
    | true =>
      simp only [List.filter_cons, hp, firstById, ih, List.filter_filter, if_true]
      simp only [Bool.and_comm]
    | false =>
      simp only [List.filter_cons, hp, firstById, List.filter_filter, Bool.false_eq_true, if_false,
        ih]
      refine List.filter_congr fun r _ => ?_
      cases hr : q r.id with
      | true =>
        have hne : r.id ≠ p.id := fun heq => by simp [heq, hp] at hr
        simp [hne]
      | false => rfl

theorem firstById_cons (p : Peer) (ps : List Peer) :
    firstById (p :: ps) = p :: firstById (ps.filter fun q => q.id ≠ p.id) :=
  congrArg _ (firstById_filter (fun id => id ≠ p.id) ps).symm

/-- Peers whose ids differ are all kept. -/
theorem firstById_eq_self {ps : List Peer} (h : ps.Pairwise fun p q => p.id ≠ q.id) :
    firstById ps = ps := by
  induction h with
  | nil => rfl
  | @cons p ps hp _ ih =>
    rw [firstById, ih, List.filter_eq_self.mpr]
    exact fun q hq => decide_eq_true (hp q hq).symm

theorem Group.of_peers (g : Group) : Group.of g.id g.peers = g := by
  obtain ⟨id, peers, distinct⟩ := g
  simp [Group.of, firstById_eq_self distinct]

/-- Of the peers at some addresses, each is kept once, where its address occurs first. -/
theorem firstById_map_ofAddress (as : List PeerAddress) :
    firstById (as.map Peer.ofAddress) = as.eraseDups.map Peer.ofAddress :=
  match as with
  | [] => rfl
  | a :: as => by
    have hsame : ((fun q : Peer => decide (q.id ≠ (Peer.ofAddress a).id)) ∘ Peer.ofAddress)
        = fun b => !b == a := by
      funext b
      rw [Bool.eq_iff_iff]
      simp [Peer.ofAddress, PeerId.ofAddress_injective.eq_iff]
    rw [List.map_cons, firstById_cons, List.filter_map, hsame, firstById_map_ofAddress,
      List.eraseDups_cons, List.map_cons]
termination_by as.length
decreasing_by exact Nat.lt_succ_of_le (List.length_filter_le _ _)

/-! ### First occurrences -/

section

variable {α : Type} [BEq α] [LawfulBEq α]

/-- Without its repeats, a list is in the order in which its entries occur first. -/
theorem pairwise_idxOf_eraseDups (as : List α) :
    as.eraseDups.Pairwise fun a b => as.idxOf a < as.idxOf b := by
  induction as using List.reverseRecOn with
  | nil => exact .nil
  | append_singleton as a ih =>
    have hbefore : ∀ b ∈ as, (as ++ [a]).idxOf b = as.idxOf b := fun b hb =>
      List.idxOf_append_of_mem hb
    have hkept : as.eraseDups.Pairwise fun b c => (as ++ [a]).idxOf b < (as ++ [a]).idxOf c := by
      refine ih.imp_of_mem fun {b c} hb hc hlt => ?_
      rwa [hbefore b (List.mem_eraseDups.mp hb), hbefore c (List.mem_eraseDups.mp hc)]
    rw [List.eraseDups_append]
    by_cases ha : a ∈ as
    · -- the last entry is a repeat
      simpa [List.removeAll, ha] using hkept
    · have hlast : ([a].removeAll as).eraseDups = [a] := by
        simp [List.removeAll, List.eraseDups_cons, ha]
      rw [hlast]
      refine List.pairwise_append.mpr ⟨hkept, List.pairwise_singleton _ a, fun b hb c hc => ?_⟩
      obtain rfl := List.mem_singleton.mp hc
      have hb : b ∈ as := List.mem_eraseDups.mp hb
      rw [hbefore b hb, List.idxOf_append_of_notMem ha]
      exact Nat.lt_add_right _ (List.idxOf_lt_length_of_mem hb)

/-- Without its repeats, a list has each of its entries once. -/
theorem count_eraseDups (as : List α) (a : α) :
    as.eraseDups.count a = if a ∈ as then 1 else 0 := by
  have hnodup : as.eraseDups.Nodup :=
    (pairwise_idxOf_eraseDups as).imp fun {b c} hlt heq => by simp [heq] at hlt
  simp only [hnodup.count, List.mem_eraseDups]

end

/-- **What derived ids identify.** Two addresses have the same derived id exactly if they are the
same. So a group of peers that are made from addresses has each of these addresses once and no
other, and has them in the order in which they occur first. -/
theorem derived_ids_identify :
    (∀ a b : PeerAddress, PeerId.ofAddress a = PeerId.ofAddress b ↔ a = b) ∧
    ∀ (id : GroupId) (as : List PeerAddress), ∃ firsts : List PeerAddress,
      (Group.of id (as.map Peer.ofAddress)).peers = firsts.map Peer.ofAddress ∧
      (∀ a, firsts.count a = if a ∈ as then 1 else 0) ∧
      firsts.Pairwise fun a b => as.idxOf a < as.idxOf b :=
  ⟨fun _ _ => PeerId.ofAddress_injective.eq_iff, fun _ as =>
    ⟨as.eraseDups, firstById_map_ofAddress as, count_eraseDups as, pairwise_idxOf_eraseDups as⟩⟩

/-- A host with underscores and digits is told from one whose port has these digits, and a repeated
address is kept once. -/
example :
    let as : List PeerAddress := [⟨"h_1", 2⟩, ⟨"h", 12⟩, ⟨"h_1", 2⟩, ⟨"h_1_2", 2⟩]
    (Group.of .bootstrap (as.map Peer.ofAddress)).peers.map (·.id.text)
      = ["h_1_2", "h_12", "h_1_2_2"] := by
  decide

end RaftAdmin
