import RaftAdmin.Proofs.Cluster.Change

/-!
# Members that agree

Each member of a group answers for itself: it says which group it belongs to, how far all members
have committed, which part it plays, and who leads. This module compares what the members say with
each other and with the leader that the cluster has on record.

## What is proved

* `exists_report_of_answers` — an answer is what a member reports about its group.
* `leader?_report` — the leader that a member tells of is the one on record, whether it is itself or
  another member.
* **`Reached.agree`** — in every state that can be reached leaders are members, and all members of a
  group that answer agree on it.
-/

namespace RaftAdmin

/-- The leader that a reply tells of. -/
def GroupInfoReply.leader? (info : GroupInfoReply) : Option PeerInfo :=
  info.role?.bind RoleInfo.leader?

namespace Cluster

variable {ids : List GroupId} {c : Cluster} {id : GroupId} {p : Peer} {info : GroupInfoReply}

/-- A peer that is asked about a group over some connection answers with success. -/
def Answers (c : Cluster) (id : GroupId) (p : Peer) (info : GroupInfoReply) : Prop :=
  ∃ group, (connector.groupInfo group p id c).result = .ok info ∧ info.reply.success = true

/-- An answer is what a member reports about its group. -/
theorem exists_report_of_answers (h : c.Answers id p info) :
    ∃ g me, c.state? id = some g ∧ g.group.peer? p.id = some me ∧ info = g.report me := by
  obtain ⟨group, hresult, hsuccess⟩ := h
  change (if c.isReachable p.id then Except.ok (c.infoFrom p.id id) else _) = _ at hresult
  split at hresult
  case isFalse => cases hresult
  obtain rfl := Except.ok.inj hresult
  unfold infoFrom at hsuccess ⊢
  cases hstate : c.state? id with
  | none => simp [hstate, GroupInfoReply.failure, ClientReply.failure] at hsuccess
  | some g =>
    cases hme : g.group.peer? p.id with
    | none => simp [hstate, hme, GroupInfoReply.failure, ClientReply.failure] at hsuccess
    | some me => exact ⟨g, me, rfl, hme, by simp [hme]⟩

/-- The leader that a member tells of is the one on record. -/
theorem leader?_report {g : GroupState} {me : Peer} (hme : g.group.peer? me.id = some me) :
    (g.report me).leader? = (g.leader?.bind g.group.peer?).map Peer.info := by
  unfold GroupInfoReply.leader? GroupState.report RoleInfo.leader?
  by_cases hleads : g.leader? = some me.id
  · simp [hleads, hme]
  · simp [hleads]

theorem peer?_eq_some {g : Group} {peer : PeerId} {me : Peer} (h : g.peer? peer = some me) :
    me ∈ g.peers ∧ me.id = peer :=
  ⟨List.mem_of_find?_eq_some h, by simpa using List.find?_some h⟩

/-- **Members that agree.** In every state that a cluster can reach the leader of each group is one
of its members. A peer that answers with success is a member and reports the group as it is in the
cluster; it tells of the leader that the cluster has on record for the group, if there is one, and
says that it leads exactly if it is this leader. Any two that answer report the same members, commit
indices and leader. -/
theorem Reached.agree (h : Reached ids c) :
    (∀ g ∈ c.groups, g.Led) ∧
    ∀ id p info, c.Answers id p info →
      c.group? id = some info.group ∧ info.group.contains p.id = true ∧
      (match c.leader? id with
        | none => info.leader? = none
        | some leader => ∃ m ∈ info.group.peers, m.id = leader ∧ info.leader? = some m.info) ∧
      (info.role?.map RoleInfo.role = some .leader ↔ c.leader? id = some p.id) ∧
      ∀ q info', c.Answers id q info' →
        info'.group = info.group ∧ info'.commitInfos = info.commitInfos ∧
          info'.leader? = info.leader? := by
  refine ⟨h.led, fun id p info hanswers => ?_⟩
  obtain ⟨g, me, hstate, hme, rfl⟩ := exists_report_of_answers hanswers
  obtain ⟨hmem, hid⟩ := peer?_eq_some hme
  have hleader : c.leader? id = g.leader? := by rw [Cluster.leader?, hstate]; rfl
  have htold := leader?_report (hid ▸ hme)
  refine ⟨?_, ?_, ?_, ?_, fun q info' hanswers' => ?_⟩
  · rw [group?, hstate]
    rfl
  · rw [Group.contains, show (g.report me).group = g.group from rfl, hme]
    rfl
  · rw [hleader, htold]
    cases hsome : g.leader? with
    | none => rfl
    | some leader =>
      have hled := h.led g (List.mem_of_find?_eq_some hstate) leader hsome
      obtain ⟨m, hm⟩ := Option.isSome_iff_exists.mp hled
      obtain ⟨hmem, hid⟩ := peer?_eq_some hm
      exact ⟨m, hmem, hid, by simp [hm]⟩
  · rw [hleader, ← hid]
    by_cases hleads : g.leader? = some me.id <;> simp [GroupState.report, hleads]
  · obtain ⟨g', me', hstate', hme', rfl⟩ := exists_report_of_answers hanswers'
    obtain rfl := Option.some.inj (hstate.symm.trans hstate')
    have hid' := (peer?_eq_some hme').2
    exact ⟨rfl, rfl, (leader?_report (hid' ▸ hme')).trans htold.symm⟩

/-- A group of three that is led by the first, then by the second, and then is left by the first. -/
def handedOver : Cluster :=
  let group := Group.of .bootstrap [.ofAddress ⟨"h1", 9870⟩, .ofAddress ⟨"h2", 9870⟩,
    .ofAddress ⟨"h3", 9870⟩]
  let c := Cluster.empty.addGroup group (some ⟨"h1_9870"⟩)
  let c := (connector.transferLeadership group ⟨"h2_9870"⟩ 1000 c).state
  (connector.setConfiguration group [.ofAddress ⟨"h2", 9870⟩, .ofAddress ⟨"h3", 9870⟩] c).state

/-- The two that remain tell of the second. -/
theorem agree_handedOver :
    ∃ info info', handedOver.Answers .bootstrap (.ofAddress ⟨"h2", 9870⟩) info ∧
      handedOver.Answers .bootstrap (.ofAddress ⟨"h3", 9870⟩) info' ∧
      info'.leader? = info.leader? ∧ info.leader? = some ⟨⟨"h2_9870"⟩, ⟨"h2", 9870⟩⟩ := by
  have hadded := Reached.empty.addGroup (.of .bootstrap [.ofAddress ⟨"h1", 9870⟩,
    .ofAddress ⟨"h2", 9870⟩, .ofAddress ⟨"h3", 9870⟩]) (some ⟨"h1_9870"⟩)
  have hmoved := Reached.act (s := .start _ .empty none)
    (.transferLeadership (.of .bootstrap []) ⟨"h2_9870"⟩ 1000) hadded
  have hreached : Reached [.bootstrap] handedOver := Reached.act (s := .start _ .empty none)
    (.setConfiguration (.of .bootstrap [])
      [.ofAddress ⟨"h2", 9870⟩, .ofAddress ⟨"h3", 9870⟩]) hmoved
  have hfirst : handedOver.Answers .bootstrap (.ofAddress ⟨"h2", 9870⟩) _ :=
    ⟨.of .bootstrap [], rfl, rfl⟩
  have hsecond : handedOver.Answers .bootstrap (.ofAddress ⟨"h3", 9870⟩) _ :=
    ⟨.of .bootstrap [], rfl, rfl⟩
  obtain ⟨-, -, -, -, hagree⟩ := hreached.agree.2 _ _ _ hfirst
  exact ⟨_, _, hfirst, hsecond, (hagree _ _ hsecond).2.2, rfl⟩

end Cluster

end RaftAdmin
