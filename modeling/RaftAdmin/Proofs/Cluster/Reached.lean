import Mathlib.Data.List.Nodup
import RaftAdmin.Cluster.Basic
import RaftAdmin.Script.Session

/-!
# The states a cluster can reach

A cluster starts without groups. Then groups are added, switches are set, and commands do what they
do, in any order and over any number of connections.

## The model

`Reached ids c` says that `c` can come about, and lists the ids under which groups were added, in
order. Several groups may be added under one id; all requests then go to the first of them.

## What is proved

* `Reached.run` — a command leads from reached states to reached states.
* `Reached.map_id` — the cluster has one group for each addition, in order.
* `groupsOf_eq_filter` — under distinct ids, a peer belongs to the groups it is a member of.
-/

namespace RaftAdmin.Cluster

/-- The states that a cluster can reach, with the ids of the groups that were added. -/
inductive Reached : List GroupId → Cluster → Prop where
  /-- There are no groups yet. -/
  | empty : Reached [] .empty
  /-- A group is added. -/
  | addGroup {ids : List GroupId} {c : Cluster} (group : Group) (leader? : Option PeerId) :
      Reached ids c → Reached (ids ++ [group.id]) (c.addGroup group leader?)
  /-- A peer is made unreachable. -/
  | setUnreachable {ids : List GroupId} {c : Cluster} (id : PeerId) :
      Reached ids c → Reached ids (c.setUnreachable id)
  /-- Configuration changes are made to fail. -/
  | rejectConfiguration {ids : List GroupId} {c : Cluster} (exception : String) :
      Reached ids c → Reached ids (c.rejectConfiguration exception)
  /-- Leadership transfers are made to fail. -/
  | rejectTransfer {ids : List GroupId} {c : Cluster} (exception : String) :
      Reached ids c → Reached ids (c.rejectTransfer exception)
  /-- Leadership transfers are made to get no answer. -/
  | failTransfer {ids : List GroupId} {c : Cluster} : Reached ids c → Reached ids c.failTransfer
  /-- The commit index of a group is set. -/
  | setCommitIndex {ids : List GroupId} {c : Cluster} (id : GroupId) (index : UInt64) :
      Reached ids c → Reached ids (c.setCommitIndex id index)
  /-- A command acts. -/
  | act {ids : List GroupId} {s : Session Cluster} (action : Action) :
      Reached ids s.cluster → Reached ids (Session.answer connector action s).2.cluster

variable {ids : List GroupId} {c : Cluster}

theorem Reached.run {α : Type} (p : Script α) {s : Session Cluster} (h : Reached ids s.cluster) :
    Reached ids (Session.run connector p s).2.cluster := by
  induction p generalizing s with
  | done a => exact h
  | perform action next ih => exact ih _ (h.act action)

/-! ### The ids of the groups -/

theorem map_id_update {id : GroupId} {f : GroupState → GroupState}
    (hf : ∀ g : GroupState, g.group.id = id → (f g).group.id = id) :
    (c.update id f).groups.map (·.group.id) = c.groups.map (·.group.id) := by
  unfold update
  dsimp only
  induction c.groups with
  | nil => rfl
  | cons g gs ih =>
    rw [updateFirst]
    split
    · next hg => rw [List.map_cons, List.map_cons, hf g hg, hg]
    · rw [List.map_cons, List.map_cons, ih]

theorem map_id_configure (id : GroupId) (peers : List Peer) :
    (c.configure id peers).state.groups.map (·.group.id) = c.groups.map (·.group.id) := by
  unfold configure
  dsimp only
  split
  · rfl
  · split
    · rfl
    · split
      · rfl
      · exact map_id_update fun _ _ => rfl

theorem map_id_transfer (id : GroupId) (target : PeerId) (timeout : Nat) :
    (c.transfer id target timeout).state.groups.map (·.group.id) = c.groups.map (·.group.id) := by
  unfold transfer
  dsimp only
  split
  · rfl
  · split
    · rfl
    · split
      · rfl
      · split
        · exact map_id_update fun _ hg => hg
        · rfl

/-- The cluster has one group for each that was added, in order. -/
theorem Reached.map_id (h : Reached ids c) : c.groups.map (·.group.id) = ids := by
  induction h with
  | empty => rfl
  | addGroup group leader? _ ih => simp [Cluster.addGroup, ih]
  | setUnreachable id _ ih => exact ih
  | rejectConfiguration exception _ ih => exact ih
  | rejectTransfer exception _ ih => exact ih
  | failTransfer _ ih => exact ih
  | setCommitIndex id index _ ih =>
    rw [Cluster.setCommitIndex, map_id_update, ih]
    exact fun _ hg => hg
  | act action _ ih =>
    cases action with
    | setConfiguration group peers => exact (map_id_configure _ _).trans ih
    | transferLeadership group target timeout => exact (map_id_transfer _ _ _).trans ih
    | connect group => exact ih
    | disconnect group => exact ih
    | listGroups group peer => exact ih
    | groupInfo group peer id => exact ih
    | print fragments => exact ih
    | sleep ms => exact ih
    | log event => exact ih
    | learn registry => exact ih

/-! ### Members -/

/-- Whether a peer is a member of the group with this id. -/
def hasMember (c : Cluster) (id : GroupId) (peer : PeerId) : Bool :=
  (c.group? id).any (·.contains peer)

theorem id_of_group? {id : GroupId} {g : Group} (h : c.group? id = some g) : g.id = id := by
  obtain ⟨state, hstate, rfl⟩ := Option.map_eq_some_iff.mp h
  simpa using List.find?_some hstate

/-- Under distinct ids, the state of a group is found by its id. -/
theorem state?_of_mem (hdistinct : (c.groups.map (·.group.id)).Nodup) {g : GroupState}
    (hg : g ∈ c.groups) : c.state? g.group.id = some g := by
  obtain ⟨found, hfound⟩ : ∃ found, c.state? g.group.id = some found := by
    rw [← Option.isSome_iff_exists, state?, List.find?_isSome]
    exact ⟨g, hg, by simp⟩
  have hid : found.group.id = g.group.id := by simpa using List.find?_some hfound
  rw [hfound, List.inj_on_of_nodup_map hdistinct (List.mem_of_find?_eq_some hfound) hg hid]

/-- Under distinct ids, a peer belongs to the groups that it is a member of. -/
theorem groupsOf_eq_filter (hdistinct : (c.groups.map (·.group.id)).Nodup) (peer : PeerId) :
    c.groupsOf peer = (c.groups.map (·.group.id)).filter (c.hasMember · peer) := by
  rw [List.filter_map, groupsOf]
  refine congrArg _ (List.filter_congr fun g hg => ?_)
  simp [hasMember, group?, state?_of_mem hdistinct hg]

/-- A peer that can be reached knows about a group if it is a member, and then it knows the group
with all its members. -/
theorem infoFrom_spec (c : Cluster) (id : GroupId) (peer : PeerId) :
    let info := c.infoFrom peer id
    info.reply.success = c.hasMember id peer ∧
      (c.hasMember id peer → info.group.isEmpty = false ∧ c.group? id = some info.group) := by
  unfold infoFrom hasMember group?
  cases hstate : c.state? id with
  | none => simp [GroupInfoReply.failure, ClientReply.failure]
  | some g =>
    cases hme : g.group.peer? peer with
    | none => simp [GroupInfoReply.failure, ClientReply.failure, Group.contains, hme]
    | some me =>
      have hmem : me ∈ g.group.peers := List.mem_of_find?_eq_some hme
      simp [GroupState.report, ClientReply.ok, Group.contains, hme, Group.isEmpty,
        List.ne_nil_of_mem hmem]

end RaftAdmin.Cluster
