import RaftAdmin.Proofs.Group.Id
import RaftAdmin.Proofs.Peer.Address
import RaftAdmin.Proofs.Peer.Identity
import RaftAdmin.Proofs.Wire.Record

/-!
# Records as they are written

Every record is read as it was written, provided its addresses can be read at all.

## The model

The fields of each record are listed as rows, with the values that are written for them. That the
object which is written has these rows is a computation; all else is said about rows.

## What is proved

* `read…_write…` — one lemma for each record: what was written is read as it was.
* `any_present_eq_false` — no member of a reply about a group is refused as too deep or too large.
* `faithful_write…` — one lemma for each record: its text is read as the object that was written.
-/

namespace RaftAdmin.Wire

open Json (Value Faithful)

/-! ### Single values -/

theorem readAddress_writeAddress {a : PeerAddress} (h : a.Legible) :
    readAddress (writeAddress a) = some a := by
  have hread := PeerAddress.read_text h
  simp [readAddress, writeAddress, Value.ofString, Value.toText?, hread, Except.toOption]

theorem readPeerId_writePeerId (id : PeerId) : readPeerId (writePeerId id) = some id := rfl

theorem readGroupId_writeGroupId (id : GroupId) : readGroupId (writeGroupId id) = some id := by
  have hread := GroupId.read_text id
  simp [readGroupId, writeGroupId, Value.ofString, Value.toText?, hread, Except.toOption]

theorem toNat?_ofNat {n bound : Nat} (h : n < bound) :
    (Value.ofNat n).toNat? bound = some n := by
  simp [Value.ofNat, Value.toNat?, Json.Number.ofNat, Json.Number.toNat?, h]

theorem readRole_writeRole (r : Role) : readRole (writeRole r) = some r := by cases r <;> rfl

/-! ### Records -/

/-- The fields of a peer. -/
def peerRows (p : Peer) : List Row :=
  [("id", some (writePeerId p.id)), ("address", some (writeAddress p.address)),
    ("priority", some (.ofNat p.priority.toNat))]

theorem readPeer_writePeer {p : Peer} (h : p.address.Legible) :
    readPeer (writePeer p) = some p := by
  have hfields : fields ["id", "address", "priority"] (writePeer p) = _ :=
    fields_present (peerRows p) (show ["id", "address", "priority"].Nodup by decide)
  have hpriority : (Value.ofNat p.priority.toNat).toNat? UInt32.size = some p.priority.toNat :=
    toNat?_ofNat p.priority.toNat_lt
  simp [readPeer, hfields, peerRows, required, withDefault, readPeerId_writePeerId,
    readAddress_writeAddress h, hpriority]

/-- The fields of a group. -/
def groupRows (g : Group) : List Row :=
  [("id", some (writeGroupId g.id)), ("peers", some (.array (g.peers.map writePeer)))]

theorem readGroup_writeGroup {g : Group} (h : ∀ p ∈ g.peers, p.address.Legible) :
    readGroup (writeGroup g) = some g := by
  have hfields : fields ["id", "peers"] (writeGroup g) = _ :=
    fields_present (groupRows g) (show ["id", "peers"].Nodup by decide)
  have hpeers : items readPeer (.array (g.peers.map writePeer)) = some g.peers :=
    items_map fun p hp => readPeer_writePeer (h p hp)
  simp [readGroup, hfields, groupRows, required, withDefault, readGroupId_writeGroupId, hpeers,
    Group.of_peers]

/-- The fields of a client reply. -/
def replyRows (r : ClientReply) : List Row :=
  [("success", some (.bool r.success)), ("exception", r.exception?.map Value.ofString),
    ("not_leader", if r.notLeader then some (.bool true) else none),
    ("leader_hint", r.leaderHint?.map writeAddress)]

theorem replyMembers_eq (r : ClientReply) : replyMembers r = present (replyRows r) := by
  simp [replyMembers, present, replyRows, optionalMember]

theorem readReplyFields_replyRows {r : ClientReply} (h : ∀ a, r.leaderHint? = some a → a.Legible) :
    readReplyFields ((replyRows r).map Prod.snd) = some r := by
  have hexception : optional Value.toText? (r.exception?.map Value.ofString)
      = some r.exception? := optional_map (fun _ _ => rfl) fun _ => nofun
  have hleader : withDefault false Value.toBool? (if r.notLeader then some (.bool true) else none)
      = some r.notLeader := by cases r.notLeader <;> rfl
  have hhint : optional readAddress (r.leaderHint?.map writeAddress) = some r.leaderHint? :=
    optional_map (fun a ha => readAddress_writeAddress (h a ha)) fun _ => nofun
  simp [readReplyFields, replyRows, required, Value.toBool?, hexception, hleader, hhint]

theorem readReply_writeReply {r : ClientReply} (h : ∀ a, r.leaderHint? = some a → a.Legible) :
    readReply (writeReply r) = some r := by
  have hfields : fields replyFields (.ofMembers (present (replyRows r))) = _ :=
    fields_present (replyRows r) (show replyFields.Nodup by decide)
  rw [readReply, writeReply, replyMembers_eq, hfields]
  exact readReplyFields_replyRows h

/-- The fields of a server. -/
def serverRows (i : PeerInfo) : List Row :=
  [("id", some (writePeerId i.id)), ("address", some (writeAddress i.address))]

theorem readPeerInfo_writePeerInfo {i : PeerInfo} (h : i.address.Legible) :
    readPeerInfo (writePeerInfo i) = some i := by
  have hfields : fields ["id", "address"] (writePeerInfo i) = _ :=
    fields_present (serverRows i) (show ["id", "address"].Nodup by decide)
  simp [readPeerInfo, hfields, serverRows, required, readPeerId_writePeerId,
    readAddress_writeAddress h]

/-- The addresses that a role names. -/
def roleAddresses (r : RoleInfo) : List PeerAddress :=
  r.self.address :: r.leaderHint?.toList.map PeerInfo.address

theorem forall_mem_roleAddresses {r : RoleInfo} {P : PeerAddress → Prop} :
    (∀ a ∈ roleAddresses r, P a)
      ↔ P r.self.address ∧ ∀ i, r.leaderHint? = some i → P i.address := by
  simp [roleAddresses]

/-- The fields of a role. -/
def roleRows (r : RoleInfo) : List Row :=
  [("role", some (writeRole r.role)), ("self", some (writePeerInfo r.self)),
    ("leader", r.leaderHint?.map writePeerInfo)]

theorem writeRoleInfo_eq (r : RoleInfo) : writeRoleInfo r = .ofMembers (present (roleRows r)) := by
  simp [writeRoleInfo, present, roleRows, optionalMember]

theorem readRoleInfo_writeRoleInfo {r : RoleInfo} (h : ∀ a ∈ roleAddresses r, a.Legible) :
    readRoleInfo (writeRoleInfo r) = some r := by
  obtain ⟨hself, hleader⟩ := forall_mem_roleAddresses.mp h
  have hfields : fields ["role", "self", "leader"] (.ofMembers (present (roleRows r))) = _ :=
    fields_present (roleRows r) (show ["role", "self", "leader"].Nodup by decide)
  have hhint : optional readPeerInfo (r.leaderHint?.map writePeerInfo) = some r.leaderHint? :=
    optional_map (fun i hi => readPeerInfo_writePeerInfo (hleader i hi)) fun _ => nofun
  rw [readRoleInfo, writeRoleInfo_eq, hfields]
  simp [roleRows, required, readRole_writeRole, readPeerInfo_writePeerInfo hself, hhint]

/-- The fields of a commit index. -/
def commitRows (i : CommitInfo) : List Row :=
  [("server", some (writePeerInfo i.server)), ("commit_index", some (.ofNat i.commitIndex.toNat))]

theorem readCommitInfo_writeCommitInfo {i : CommitInfo} (h : i.server.address.Legible) :
    readCommitInfo (writeCommitInfo i) = some i := by
  have hfields : fields ["server", "commit_index"] (writeCommitInfo i) = _ :=
    fields_present (commitRows i) (show ["server", "commit_index"].Nodup by decide)
  have hindex : (Value.ofNat i.commitIndex.toNat).toNat? UInt64.size = some i.commitIndex.toNat :=
    toNat?_ofNat i.commitIndex.toNat_lt
  simp [readCommitInfo, hfields, commitRows, required, readPeerInfo_writePeerInfo h, hindex]

/-! ### The reply about a group -/

/-- The fields of a reply about a group beside those of a client reply. -/
def infoRows (r : GroupInfoReply) : List Row :=
  [("group", some (writeGroup r.group)), ("role", r.role?.map writeRoleInfo),
    ("commit_infos", some (.array (r.commitInfos.map writeCommitInfo)))]

theorem writeGroupInfo_eq (r : GroupInfoReply) :
    writeGroupInfo r = .ofMembers (present (replyRows r.reply ++ infoRows r)) := by
  rw [present_append, writeGroupInfo, replyMembers_eq]
  simp [present, infoRows, optionalMember]

/-- A client reply consists of truth values and texts. -/
theorem bool_or_text_of_replyRows {r : ClientReply} {row : Row} (h : row ∈ replyRows r) {v : Value}
    (hv : row.2 = some v) : (∃ b, v = .bool b) ∨ ∃ s, v = .ofString s := by
  simp only [replyRows, List.mem_cons, List.not_mem_nil, or_false] at h
  rcases h with rfl | rfl | rfl | rfl
  · exact .inl ⟨_, (Option.some.inj hv).symm⟩
  · obtain ⟨s, -, rfl⟩ := Option.map_eq_some_iff.mp hv
    exact .inr ⟨s, rfl⟩
  · exact .inl ⟨_, (Option.some.inj (Option.ite_none_right_eq_some.mp hv).2).symm⟩
  · obtain ⟨a, -, rfl⟩ := Option.map_eq_some_iff.mp hv
    exact .inr ⟨a.text, rfl⟩

/-- A written reply about a group has no member that could not be kept. -/
theorem any_present_eq_false (r : GroupInfoReply) :
    (present (replyRows r.reply ++ infoRows r)).any
      (fun m => m.1 ∉ infoFields && !m.2.isPlain maxNesting) = false := by
  refine List.any_eq_false.mpr fun m hm => ?_
  rcases List.mem_append.mp (mem_present.mp hm) with h | h
  · have hplain : m.2.isPlain maxNesting = true := by
      rcases bool_or_text_of_replyRows h rfl with ⟨b, hv⟩ | ⟨s, hv⟩ <;> rw [hv] <;> rfl
    simp [hplain]
  · have hname : m.1 ∈ infoFields := List.mem_map_of_mem (f := Prod.fst) h
    simp [hname]

theorem readGroupInfo_writeGroupInfo {r : GroupInfoReply}
    (hreply : ∀ a, r.reply.leaderHint? = some a → a.Legible)
    (hgroup : ∀ p ∈ r.group.peers, p.address.Legible)
    (hrole : ∀ role, r.role? = some role → ∀ a ∈ roleAddresses role, a.Legible)
    (hcommits : ∀ i ∈ r.commitInfos, i.server.address.Legible) :
    readGroupInfo (writeGroupInfo r) = some r := by
  have hmembers := toMembers?_ofMembers (present (replyRows r.reply ++ infoRows r))
  have hnames : ((replyRows r.reply ++ infoRows r).map Prod.fst).Nodup :=
    show (replyFields ++ infoFields).Nodup by decide
  have hfields : replyFields.mapM (field (present (replyRows r.reply ++ infoRows r))) = _ :=
    mapM_field hnames (List.subset_append_left (replyRows r.reply) (infoRows r))
  have hinfo : infoFields.mapM (field (present (replyRows r.reply ++ infoRows r))) = _ :=
    mapM_field hnames (List.subset_append_right (replyRows r.reply) (infoRows r))
  have hoptional : optional readRoleInfo (r.role?.map writeRoleInfo) = some r.role? :=
    optional_map (fun role h => readRoleInfo_writeRoleInfo (hrole role h)) fun _ => nofun
  have hitems : items readCommitInfo (.array (r.commitInfos.map writeCommitInfo))
      = some r.commitInfos := items_map fun i hi => readCommitInfo_writeCommitInfo (hcommits i hi)
  rw [readGroupInfo, writeGroupInfo_eq, hmembers, Option.bind_eq_bind, Option.bind_some,
    any_present_eq_false, if_neg Bool.false_ne_true, hfields, hinfo]
  simp [infoRows, readReplyFields_replyRows hreply, required, withDefault,
    readGroup_writeGroup hgroup, hoptional, hitems]

/-! ### Texts of records -/

theorem faithful_writePeerId (id : PeerId) : Faithful (writePeerId id) := .text _

theorem faithful_writeAddress (a : PeerAddress) : Faithful (writeAddress a) := .text _

theorem faithful_writePeer (p : Peer) : Faithful (writePeer p) :=
  faithful_present (peerRows p) (by
    simp [peerRows, faithful_writePeerId, faithful_writeAddress, Faithful.nat])

theorem faithful_writeGroup (g : Group) : Faithful (writeGroup g) := by
  have hid : Faithful (writeGroupId g.id) := .text _
  have hpeers : Faithful (.array (g.peers.map writePeer)) := faithful_map faithful_writePeer _
  exact faithful_present (groupRows g) (by simp [groupRows, hid, hpeers])

theorem faithful_of_mem_replyRows {r : ClientReply} {row : Row} (h : row ∈ replyRows r) (v : Value)
    (hv : row.2 = some v) : Faithful v := by
  rcases bool_or_text_of_replyRows h hv with ⟨b, rfl⟩ | ⟨s, rfl⟩
  · exact .bool b
  · exact .text s

theorem faithful_writeReply (r : ClientReply) : Faithful (writeReply r) := by
  rw [writeReply, replyMembers_eq]
  exact faithful_present _ fun row hrow => faithful_of_mem_replyRows hrow

theorem faithful_writePeerInfo (i : PeerInfo) : Faithful (writePeerInfo i) :=
  faithful_present (serverRows i) (by
    simp [serverRows, faithful_writePeerId, faithful_writeAddress])

theorem faithful_writeRoleInfo (r : RoleInfo) : Faithful (writeRoleInfo r) := by
  have hrole : Faithful (writeRole r.role) := .text _
  rw [writeRoleInfo_eq]
  exact faithful_present _ (by simp [roleRows, hrole, faithful_writePeerInfo])

theorem faithful_writeCommitInfo (i : CommitInfo) : Faithful (writeCommitInfo i) :=
  faithful_present (commitRows i) (by simp [commitRows, faithful_writePeerInfo, Faithful.nat])

theorem faithful_writeGroupInfo (r : GroupInfoReply) : Faithful (writeGroupInfo r) := by
  have hcommits : Faithful (.array (r.commitInfos.map writeCommitInfo)) :=
    faithful_map faithful_writeCommitInfo _
  have hinfo : ∀ row ∈ infoRows r, ∀ v, row.2 = some v → Faithful v := by
    simp [infoRows, faithful_writeGroup, faithful_writeRoleInfo, hcommits]
  rw [writeGroupInfo_eq]
  refine faithful_present _ fun row hrow => ?_
  rcases List.mem_append.mp hrow with hrow | hrow
  · exact faithful_of_mem_replyRows hrow
  · exact hinfo row hrow

end RaftAdmin.Wire
