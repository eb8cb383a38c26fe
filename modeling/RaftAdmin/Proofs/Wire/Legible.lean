import RaftAdmin.Proofs.Wire.Written

/-!
# Records as they are read

An address that stands in a record was read from a text, so it is one that can be read again.

## What is proved

* `legible_of_read…` — one lemma for each record: the addresses of what was read can be read again.
-/

namespace RaftAdmin.Wire

open Json (Value)

theorem legible_of_readAddress {v : Value} {a : PeerAddress} (h : readAddress v = some a) :
    a.Legible := by
  unfold readAddress at h
  split at h
  · next s _ =>
    cases hread : PeerAddress.read s with
    | error e => rw [hread] at h; cases h
    | ok b =>
      rw [hread] at h
      obtain rfl := Option.some.inj h
      exact PeerAddress.legible_of_read hread
  · cases h

theorem legible_of_readPeer {v : Value} {p : Peer} (h : readPeer v = some p) :
    p.address.Legible := by
  obtain ⟨fs, -, h⟩ := Option.bind_eq_some_iff.mp h
  split at h
  · obtain ⟨id, -, h⟩ := Option.bind_eq_some_iff.mp h
    obtain ⟨a, ha, h⟩ := Option.bind_eq_some_iff.mp h
    obtain ⟨priority, -, h⟩ := Option.bind_eq_some_iff.mp h
    obtain rfl := Option.some.inj h
    obtain ⟨w, hw⟩ := exists_of_required ha
    exact legible_of_readAddress hw
  · cases h

theorem mem_of_mem_firstById {p : Peer} {ps : List Peer} (h : p ∈ firstById ps) : p ∈ ps := by
  induction ps with
  | nil => cases h
  | cons q ps ih =>
    rcases List.mem_cons.mp h with rfl | h
    · exact List.mem_cons_self
    · exact List.mem_cons_of_mem _ (ih (List.mem_of_mem_filter h))

theorem legible_of_readGroup {v : Value} {g : Group} (h : readGroup v = some g) {p : Peer}
    (hp : p ∈ g.peers) : p.address.Legible := by
  obtain ⟨fs, -, h⟩ := Option.bind_eq_some_iff.mp h
  split at h
  · obtain ⟨id, -, h⟩ := Option.bind_eq_some_iff.mp h
    obtain ⟨peers, hpeers, h⟩ := Option.bind_eq_some_iff.mp h
    obtain rfl := Option.some.inj h
    obtain ⟨w, hw⟩ := exists_of_withDefault_items hpeers (mem_of_mem_firstById hp)
    exact legible_of_readPeer hw
  · cases h

theorem legible_of_readReplyFields {fs : List (Option Value)} {r : ClientReply}
    (h : readReplyFields fs = some r) {a : PeerAddress} (ha : r.leaderHint? = some a) :
    a.Legible := by
  unfold readReplyFields at h
  split at h
  · obtain ⟨success, -, h⟩ := Option.bind_eq_some_iff.mp h
    obtain ⟨exception, -, h⟩ := Option.bind_eq_some_iff.mp h
    obtain ⟨notLeader, -, h⟩ := Option.bind_eq_some_iff.mp h
    obtain ⟨hint, hhint, h⟩ := Option.bind_eq_some_iff.mp h
    obtain rfl := Option.some.inj h
    obtain rfl : hint = some a := ha
    obtain ⟨w, hw⟩ := exists_of_optional hhint
    exact legible_of_readAddress hw
  · cases h

theorem legible_of_readPeerInfo {v : Value} {i : PeerInfo} (h : readPeerInfo v = some i) :
    i.address.Legible := by
  obtain ⟨fs, -, h⟩ := Option.bind_eq_some_iff.mp h
  split at h
  · obtain ⟨id, -, h⟩ := Option.bind_eq_some_iff.mp h
    obtain ⟨a, ha, h⟩ := Option.bind_eq_some_iff.mp h
    obtain rfl := Option.some.inj h
    obtain ⟨w, hw⟩ := exists_of_required ha
    exact legible_of_readAddress hw
  · cases h

theorem legible_of_readRoleInfo {v : Value} {r : RoleInfo} (h : readRoleInfo v = some r) :
    ∀ a ∈ roleAddresses r, a.Legible := by
  obtain ⟨fs, -, h⟩ := Option.bind_eq_some_iff.mp h
  split at h
  · obtain ⟨role, -, h⟩ := Option.bind_eq_some_iff.mp h
    obtain ⟨self, hself, h⟩ := Option.bind_eq_some_iff.mp h
    obtain ⟨hint, hhint, h⟩ := Option.bind_eq_some_iff.mp h
    obtain rfl := Option.some.inj h
    obtain ⟨w, hw⟩ := exists_of_required hself
    refine forall_mem_roleAddresses.mpr ⟨legible_of_readPeerInfo hw, ?_⟩
    rintro i rfl
    obtain ⟨w, hw⟩ := exists_of_optional hhint
    exact legible_of_readPeerInfo hw
  · cases h

theorem legible_of_readCommitInfo {v : Value} {i : CommitInfo} (h : readCommitInfo v = some i) :
    i.server.address.Legible := by
  obtain ⟨fs, -, h⟩ := Option.bind_eq_some_iff.mp h
  split at h
  · obtain ⟨server, hserver, h⟩ := Option.bind_eq_some_iff.mp h
    obtain ⟨index, -, h⟩ := Option.bind_eq_some_iff.mp h
    obtain rfl := Option.some.inj h
    obtain ⟨w, hw⟩ := exists_of_required hserver
    exact legible_of_readPeerInfo hw
  · cases h

theorem legible_of_readGroupInfo {v : Value} {r : GroupInfoReply}
    (h : readGroupInfo v = some r) :
    (∀ a, r.reply.leaderHint? = some a → a.Legible) ∧ (∀ p ∈ r.group.peers, p.address.Legible) ∧
      (∀ role, r.role? = some role → ∀ a ∈ roleAddresses role, a.Legible) ∧
        ∀ i ∈ r.commitInfos, i.server.address.Legible := by
  obtain ⟨members, -, h⟩ := Option.bind_eq_some_iff.mp h
  split_ifs at h
  obtain ⟨fs, -, h⟩ := Option.bind_eq_some_iff.mp h
  split at h
  · obtain ⟨replies, -, h⟩ := Option.bind_eq_some_iff.mp h
    obtain ⟨reply, hreply, h⟩ := Option.bind_eq_some_iff.mp h
    obtain ⟨group, hgroup, h⟩ := Option.bind_eq_some_iff.mp h
    obtain ⟨role, hrole, h⟩ := Option.bind_eq_some_iff.mp h
    obtain ⟨commits, hcommits, h⟩ := Option.bind_eq_some_iff.mp h
    obtain rfl := Option.some.inj h
    refine ⟨fun a => legible_of_readReplyFields hreply, fun p hp => ?_, ?_, fun i hi => ?_⟩
    · obtain ⟨w, hw⟩ := exists_of_required hgroup
      exact legible_of_readGroup hw hp
    · rintro role rfl
      obtain ⟨w, hw⟩ := exists_of_optional hrole
      exact legible_of_readRoleInfo hw
    · obtain ⟨w, hw⟩ := exists_of_withDefault_items hcommits hi
      exact legible_of_readCommitInfo hw
  · cases h

end RaftAdmin.Wire
