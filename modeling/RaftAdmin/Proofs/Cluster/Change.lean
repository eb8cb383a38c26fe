import RaftAdmin.Proofs.Cluster.Reached
import RaftAdmin.Proofs.Peer.Identity

/-!
# Changing a cluster

A cluster changes a group by a configuration or a transfer that it accepts, and by nothing else that
it is asked. Only the first group with the id is changed.

## What is proved

* `configure_cases`, `transfer_cases` — what a change does, if it is accepted, and that it does
  nothing else.
* `group?_of_accepted`, `leader?_of_accepted` — members that are accepted are the members of the
  group, and a member to which a transfer is accepted is its leader.
* `Reached.led` — the leader of a group is one of its members.
* `standing_reconfigure` — new priorities leave the ids and addresses of the members, and the
  leader.
-/

namespace RaftAdmin

/-- The members with an id are told by the ids of all. -/
theorem Group.contains_iff {g : Group} {id : PeerId} :
    g.contains id = true ↔ id ∈ g.peers.map Peer.id := by
  simp [Group.contains, Group.peer?, List.find?_isSome]

theorem Group.peers_of {peers : List Peer} (h : peers.Pairwise fun p q => p.id ≠ q.id)
    (id : GroupId) : (Group.of id peers).peers = peers :=
  firstById_eq_self h

theorem Group.map_id_of_info {g : Group} {peers : List Peer}
    (h : peers.map Peer.info = g.peers.map Peer.info) :
    peers.map Peer.id = g.peers.map Peer.id := by
  simpa [Function.comp_def, Peer.info] using congrArg (List.map PeerInfo.id) h

/-- Members that keep their ids and addresses have distinct ids. -/
theorem Group.distinct_of_info {g : Group} {peers : List Peer}
    (h : peers.map Peer.info = g.peers.map Peer.info) :
    peers.Pairwise fun p q => p.id ≠ q.id := by
  rw [← List.pairwise_map (f := Peer.id) (R := (· ≠ ·)), Group.map_id_of_info h, List.pairwise_map]
  exact g.distinct

namespace GroupState

/-- The leader is a member. -/
def Led (g : GroupState) : Prop :=
  ∀ leader, g.leader? = some leader → g.group.contains leader = true

/-- The id, the leader, and the ids and addresses of the members. -/
def standing (g : GroupState) : GroupId × Option PeerId × List PeerInfo :=
  (g.group.id, g.leader?, g.group.peers.map Peer.info)

theorem led_filter (group : Group) (leader? : Option PeerId) (index : UInt64) :
    Led ⟨group, leader?.filter group.contains, index⟩ := fun leader h => by
  simpa using (Option.filter_eq_some_iff.mp h).2

/-- New priorities for the members leave everything else. -/
theorem standing_reconfigure {g : GroupState} (hled : g.Led) {peers : List Peer}
    (hpeers : peers.map Peer.info = g.group.peers.map Peer.info) :
    (g.reconfigure g.group.id peers).standing = g.standing := by
  have hids := Group.map_id_of_info hpeers
  have hself := Group.peers_of (Group.distinct_of_info hpeers) g.group.id
  have hcontains : ∀ id, (Group.of g.group.id peers).contains id = g.group.contains id := by
    intro id
    rw [Bool.eq_iff_iff, Group.contains_iff, Group.contains_iff, hself, hids]
  have hleader : g.leader?.filter (Group.of g.group.id peers).contains = g.leader? := by
    cases hsome : g.leader? with
    | none => rfl
    | some leader => simp [Option.filter, hcontains, hled leader hsome]
  simp only [standing, reconfigure, hleader, hself, hpeers]
  rfl

end GroupState

namespace Cluster

variable {ids : List GroupId} {c : Cluster} {id : GroupId} {g : GroupState}

/-- Only the first group with an id is found and changed. -/
theorem groups_eq_of_state? (h : c.state? id = some g) :
    g.group.id = id ∧ ∃ before after, c.groups = before ++ g :: after ∧
      (∀ b ∈ before, b.group.id ≠ id) ∧ ∀ f, (c.update id f).groups = before ++ f g :: after := by
  obtain ⟨hid, before, after, hgroups, hbefore⟩ := List.find?_eq_some_iff_append.mp h
  simp only [decide_eq_true_eq] at hid
  replace hbefore : ∀ b ∈ before, b.group.id ≠ id := fun b hb => by simpa using hbefore b hb
  refine ⟨hid, before, after, hgroups, hbefore, fun f => ?_⟩
  rw [update, hgroups]
  dsimp only
  clear hgroups h
  induction before with
  | nil => simp [updateFirst, hid]
  | cons b bs ih =>
    rw [List.cons_append, updateFirst, if_neg (hbefore b List.mem_cons_self),
      ih fun b hb => hbefore b (List.mem_cons_of_mem _ hb), List.cons_append]

/-- A group after a change of one group is that one, or was there before. -/
theorem mem_update {f : GroupState → GroupState} (h : g ∈ (c.update id f).groups) :
    g ∈ c.groups ∨ ∃ g₀ ∈ c.groups, c.state? id = some g₀ ∧ g = f g₀ := by
  unfold update at h
  unfold state?
  dsimp only at h
  generalize c.groups = gs at h ⊢
  induction gs with
  | nil => cases h
  | cons b bs ih =>
    rw [updateFirst] at h
    split at h
    · next hb =>
      rcases List.mem_cons.mp h with rfl | h
      · exact .inr ⟨b, List.mem_cons_self, by simp [hb], rfl⟩
      · exact .inl (List.mem_cons_of_mem _ h)
    · next hb =>
      rcases List.mem_cons.mp h with rfl | h
      · exact .inl List.mem_cons_self
      · rcases ih h with h | ⟨g₀, hg₀, hfind, heq⟩
        · exact .inl (List.mem_cons_of_mem _ h)
        · exact .inr ⟨g₀, List.mem_cons_of_mem _ hg₀, by simp [hb, hfind], heq⟩

/-- A configuration is accepted and changes its group, or changes nothing. -/
theorem configure_cases (c : Cluster) (id : GroupId) (peers : List Peer) :
    ((c.configure id peers).state.groups = c.groups ∧
      ∀ reply, (c.configure id peers).result = .ok reply → reply.success = false) ∨
    ∃ g, c.state? id = some g ∧ (c.configure id peers).result = .ok .ok ∧
      (c.configure id peers).state.groups
        = (c.update id fun g => g.reconfigure id peers).groups := by
  unfold configure
  dsimp only
  split
  · exact .inl ⟨rfl, fun reply h => by cases h; rfl⟩
  · split
    · exact .inl ⟨rfl, fun reply h => by cases h; rfl⟩
    · next g hg =>
      split
      · exact .inl ⟨rfl, nofun⟩
      · exact .inr ⟨g, hg, rfl, rfl⟩

theorem state?_update {g : GroupState} {f : GroupState → GroupState} (h : c.state? id = some g)
    (hf : (f g).group.id = id) : (c.update id f).state? id = some (f g) := by
  obtain ⟨-, before, after, -, hbefore, hupdate⟩ := groups_eq_of_state? h
  rw [state?, hupdate, List.find?_append, List.find?_eq_none.mpr (by simpa using hbefore)]
  simp [hf]

/-- Members that are accepted are the members of the group. -/
theorem group?_of_accepted {peers : List Peer} {reply : ClientReply}
    (hreply : (c.configure id peers).result = .ok reply) (haccepted : reply.success = true) :
    (c.configure id peers).state.group? id = some (.of id peers) := by
  rcases c.configure_cases id peers with ⟨-, hdeclined⟩ | ⟨g, hstate, -, hgroups⟩
  · exact absurd haccepted (by simp [hdeclined reply hreply])
  · have hupdate := state?_update (f := (·.reconfigure id peers)) hstate rfl
    rw [state?] at hupdate
    rw [group?, state?, hgroups, hupdate]
    rfl

/-- A transfer is accepted and makes a member the leader, or changes nothing. -/
theorem transfer_cases (c : Cluster) (id : GroupId) (target : PeerId) (timeout : Nat) :
    ((c.transfer id target timeout).state.groups = c.groups ∧
      ∀ reply, (c.transfer id target timeout).result = .ok reply → reply.success = false) ∨
    ∃ g, c.state? id = some g ∧ g.group.contains target = true ∧
      (c.transfer id target timeout).result = .ok .ok ∧
      (c.transfer id target timeout).state.groups
        = (c.update id fun g => { g with leader? := some target }).groups := by
  unfold transfer
  dsimp only
  split
  · exact .inl ⟨rfl, nofun⟩
  · split
    · exact .inl ⟨rfl, fun reply h => by cases h; rfl⟩
    · split
      · exact .inl ⟨rfl, fun reply h => by cases h; rfl⟩
      · next g hg =>
        split
        · next htarget => exact .inr ⟨g, hg, htarget, rfl, rfl⟩
        · exact .inl ⟨rfl, fun reply h => by cases h; rfl⟩

/-- A member to which a transfer is accepted leads the group, which is not changed otherwise. -/
theorem leader?_of_accepted {target : PeerId} {timeout : Nat} {reply : ClientReply}
    (hreply : (c.transfer id target timeout).result = .ok reply) (haccepted : reply.success = true) :
    (c.transfer id target timeout).state.leader? id = some target ∧
      (c.transfer id target timeout).state.group? id = c.group? id := by
  rcases c.transfer_cases id target timeout with ⟨-, hdeclined⟩ | ⟨g, hstate, -, -, hgroups⟩
  · exact absurd haccepted (by simp [hdeclined reply hreply])
  · have hid := (groups_eq_of_state? hstate).1
    have hupdate := state?_update (f := ({ · with leader? := some target })) hstate hid
    rw [state?] at hupdate
    rw [leader?, group?, state?, hgroups, hupdate, group?, hstate]
    exact ⟨rfl, rfl⟩

/-- A cluster with one group knows no other. -/
theorem eq_of_group?_addGroup {leader? : Option PeerId} {group found : Group}
    (h : (empty.addGroup group leader?).group? id = some found) : found = group := by
  obtain ⟨g, hstate, rfl⟩ := Option.map_eq_some_iff.mp h
  have hmem : g ∈ (empty.addGroup group leader?).groups := List.mem_of_find?_eq_some hstate
  rw [List.mem_singleton.mp hmem]

theorem led_of_update {f : GroupState → GroupState} (h : ∀ g ∈ c.groups, g.Led)
    (hf : ∀ g, c.state? id = some g → g.Led → (f g).Led) : ∀ g ∈ (c.update id f).groups, g.Led := by
  intro g hg
  rcases mem_update hg with hg | ⟨g₀, hg₀, hstate, rfl⟩
  · exact h g hg
  · exact hf g₀ hstate (h g₀ hg₀)

/-- **The leader of a group is one of its members.** -/
theorem Reached.led (h : Reached ids c) : ∀ g ∈ c.groups, g.Led := by
  induction h with
  | empty => nofun
  | addGroup group leader? _ ih =>
    refine List.forall_mem_append.mpr ⟨ih, List.forall_mem_singleton.mpr ?_⟩
    exact GroupState.led_filter group leader? 0
  | setUnreachable id _ ih => exact ih
  | rejectConfiguration exception _ ih => exact ih
  | rejectTransfer exception _ ih => exact ih
  | failTransfer _ ih => exact ih
  | setCommitIndex id index _ ih => exact led_of_update ih fun g _ hled => hled
  | @act ids s action _ ih =>
    cases action with
    | setConfiguration group peers =>
      rcases configure_cases s.cluster group.id peers with ⟨hgroups, -⟩ | ⟨g, -, -, hgroups⟩
      · exact hgroups.symm ▸ ih
      · refine hgroups.symm ▸ led_of_update ih fun g _ _ => ?_
        exact GroupState.led_filter _ _ _
    | transferLeadership group target timeout =>
      rcases transfer_cases s.cluster group.id target timeout with
        ⟨hgroups, -⟩ | ⟨g, hstate, htarget, -, hgroups⟩
      · exact hgroups.symm ▸ ih
      · refine hgroups.symm ▸ led_of_update ih fun g' hstate' _ leader hleader => ?_
        obtain rfl := Option.some.inj (hstate.symm.trans hstate')
        obtain rfl := Option.some.inj hleader
        exact htarget
    | connect group => exact ih
    | disconnect group => exact ih
    | listGroups group peer => exact ih
    | groupInfo group peer id => exact ih
    | print fragments => exact ih
    | sleep ms => exact ih
    | log event => exact ih
    | learn registry => exact ih

end Cluster

end RaftAdmin
