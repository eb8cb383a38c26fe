import Mathlib.Data.List.Nodup
import RaftAdmin.Proofs.Command.Outcome

/-!
# What an address denotes

An operator names members by addresses, and a cluster may report ids that are not derived from them.
A command that moves leadership takes the first member that listens at an address or has the derived
id. One that adds or removes peers goes by the derived id alone, and one that sets priorities by the
address alone. So they mean the same member only where both agree.

## What is proved

* `submits_of_members` — a command for members submits those of its errand, and no others.
* **`submits_at_address`** — what commands submit for an address that denotes a member.
* **`exists_unlike_members`** — over a cluster whose ids are not derived from addresses, a member
  that can be made the leader is not removed, is added once more, or keeps its priority, and each
  time the command succeeds.
-/

namespace RaftAdmin

open Script (Path)

variable {conf : Configuration} {command : Command} {r : ResolvedGroup} {g : Group} {m : Peer}
  {a : PeerAddress} {n : UInt32}

/-! ### What a command submits -/

/-- Whether an action asks for these members of a resolved group, or for no change. -/
def Action.AsksFor (r : ResolvedGroup) (peers : List Peer) (action : Action) : Prop :=
  action.Asks ∨ action = .setConfiguration r.contactGroup peers

/-- Whoever replies, a command that resolves this group submits these members for it, unless the
connection is refused, and it asks for no other change. -/
def Command.Submits (command : Command) (conf : Configuration) (r : ResolvedGroup)
    (peers : List Peer) : Prop :=
  ∀ xs code errand zs, Path (Shell.execute conf command) xs code →
    command.Resolves conf xs errand r zs →
      ((∃ failure, ⟨.connect r.contactGroup, .error failure⟩ ∈ zs) ∨
        ∃ reply, ⟨.setConfiguration r.contactGroup peers, reply⟩ ∈ zs) ∧
      ∀ x ∈ xs, x.action.AsksFor r peers

theorem submitted_of_submitting {peers : List Peer} {context : String} {xs : List Turn}
    {result : Except AdminError Int} (h : Submitting r peers context xs result) :
    (∃ reply, ⟨.setConfiguration r.contactGroup peers, reply⟩ ∈ xs) ∧
      ∀ x ∈ xs, x.action.AsksFor r peers := by
  cases h with
  | unanswered failure =>
    exact ⟨⟨_, List.mem_cons_self⟩, List.forall_mem_singleton.mpr (.inr rfl)⟩
  | declined reply written hreply =>
    refine ⟨⟨_, List.mem_cons_self⟩, List.forall_mem_cons.mpr ⟨.inr rfl, ?_⟩⟩
    exact List.forall_mem_singleton.mpr (.inl trivial)
  | accepted reply written hreply =>
    refine ⟨⟨_, List.mem_cons_self⟩, List.forall_mem_cons.mpr ⟨.inr rfl, ?_⟩⟩
    exact List.forall_mem_singleton.mpr (.inl trivial)

/-- A command for members submits those of its errand. -/
theorem submits_of_members {peers : List Peer} (htask : command.task.ChangesMembers)
    (hpeers : ∀ errand us, Path (command.task.errand conf).run us (.ok errand) →
      errand.members? r.group = some peers) :
    command.Submits conf r peers := by
  intro xs code errand zs hpath hresolves
  obtain ⟨ys, result, tail, hdoing, hreporting, rfl⟩ := doing_of_resolves hpath hresolves
  have hmembers : errand.members? r.group = some peers := by
    obtain ⟨us, -, herrand, -, -⟩ := hresolves
    exact hpeers errand us herrand
  obtain ⟨hserves, us, hus, rfl, -⟩ := exists_of_resolves hresolves
  have hchanges := hserves.changesMembers htask
  have hbefore : ∀ u ∈ us, u.action.AsksFor r peers := fun u hu => .inl (hus u hu).asks
  have hafter : ∀ x ∈ tail, x.action.AsksFor r peers := fun x hx =>
    .inl (asks_of_reporting hreporting x hx)
  obtain ⟨_, context, ws, events, hsame, hconnected, rfl⟩ := submitting_of_doing hdoing hchanges
  obtain rfl := Option.some.inj (hmembers.symm.trans hsame)
  have hevents : ∀ x ∈ events.map (fun event => (⟨.log event, ()⟩ : Turn)),
      x.action.AsksFor r peers := by
    simp [Action.AsksFor, Action.Asks]
  rcases hconnected with ⟨failure, rfl, rfl⟩ | ⟨ys, hsubmitting, rfl⟩
  · refine ⟨.inl ⟨failure, by simp⟩, ?_⟩
    refine List.forall_mem_append.mpr ⟨hbefore, List.forall_mem_append.mpr ⟨?_, hafter⟩⟩
    refine List.forall_mem_append.mpr ⟨hevents, ?_⟩
    exact List.forall_mem_singleton.mpr (.inl trivial)
  · obtain ⟨⟨reply, hreply⟩, hys⟩ := submitted_of_submitting hsubmitting
    refine ⟨.inr ⟨reply, by simp [hreply]⟩, ?_⟩
    refine List.forall_mem_append.mpr ⟨hbefore, List.forall_mem_append.mpr ⟨?_, hafter⟩⟩
    refine List.forall_mem_append.mpr ⟨hevents, List.forall_mem_cons.mpr ⟨.inl trivial, ?_⟩⟩
    exact List.forall_mem_append.mpr ⟨hys, List.forall_mem_singleton.mpr (.inl trivial)⟩

/-! ### The member at an address -/

theorem peerAt?_eq_some (h : g.peerAt? a = some m) :
    m ∈ g.peers ∧ (m.address = a ∨ m.id = .ofAddress a) :=
  ⟨List.mem_of_find?_eq_some h, by simpa using List.find?_some h⟩

/-- A member is told by its id. -/
theorem Group.eq_of_id_eq {p q : Peer} (hp : p ∈ g.peers) (hq : q ∈ g.peers) (h : p.id = q.id) :
    p = q :=
  List.inj_on_of_nodup_map (List.pairwise_map.mpr g.distinct) hp hq h

theorem addPeers_singleton_of_mem (hm : m ∈ g.peers) (hid : m.id = .ofAddress a) :
    addPeers g.peers [a] = g.peers := by
  have hknown : g.peers.any (fun p => p.id = PeerId.ofAddress a) = true :=
    List.any_eq_true.mpr ⟨m, hm, decide_eq_true hid⟩
  simp [addPeers, addPeer, hknown]

theorem addPeers_singleton_of_notMem (h : ∀ p ∈ g.peers, p.id ≠ .ofAddress a) :
    addPeers g.peers [a] = g.peers ++ [.ofAddress a] := by
  have hnew : g.peers.any (fun p => p.id = PeerId.ofAddress a) = false :=
    List.any_eq_false.mpr fun p hp => by simpa using h p hp
  simp [addPeers, addPeer, hnew]

theorem removePeers_singleton_of_mem (hm : m ∈ g.peers) (hid : m.id = .ofAddress a) :
    removePeers g.peers [a] = g.peers.filter (· ≠ m) := by
  refine List.filter_congr fun p hp => ?_
  have hsame : p.id = m.id ↔ p = m := ⟨g.eq_of_id_eq hp hm, congrArg Peer.id⟩
  simp [← hid, hsame]

theorem mem_removePeers_singleton (hm : m ∈ g.peers) (hid : m.id ≠ .ofAddress a) :
    m ∈ removePeers g.peers [a] := by
  simp [removePeers, hm, hid]

theorem prioritize_singleton (a : PeerAddress) (n : UInt32) (p : Peer) :
    prioritize [(a, n)] p = if p.address = a then p.withPriority n else p := by
  by_cases h : p.address = a
  · simp [prioritize, h]
  · simp [prioritize, h, Ne.symm h]

theorem map_info_prioritize (pairs : List (PeerAddress × UInt32)) (peers : List Peer) :
    (peers.map (prioritize pairs)).map Peer.info = peers.map Peer.info := by
  rw [List.map_map]
  refine List.map_congr_left fun p _ => ?_
  simp only [Function.comp, prioritize]
  split <;> rfl

/-! ### Commands -/

/-- **What commands submit for the address of a member.** If the ids of members are distinct, a
member that an address denotes listens there or has the derived id. If it has this id, then adding
its address leaves all members as they are, and removing it leaves all but this member. If it
listens there, then setting a priority for its address gives it this priority. If it has another id,
then it is not removed, and unless another member has the derived id, a peer with this id is added.
If it listens elsewhere, then its priority stays. -/
theorem submits_at_address (hm : r.group.peerAt? a = some m) (conf : Configuration)
    (request : GroupRequest) :
    (m.address = a ∨ m.id = .ofAddress a) ∧
    (∀ values, readAddresses .addPeer values = .ok [a] →
      ∃ peers, Command.Submits ⟨.quorumAdd values, request⟩ conf r peers ∧
        (m.id = .ofAddress a → peers = r.group.peers) ∧
        ((∀ p ∈ r.group.peers, p.id ≠ .ofAddress a) →
          peers = r.group.peers ++ [.ofAddress a])) ∧
    (∀ values, readAddresses .removePeer values = .ok [a] →
      ∃ peers, Command.Submits ⟨.quorumRemove values, request⟩ conf r peers ∧
        (m.id = .ofAddress a → peers = r.group.peers.filter (· ≠ m)) ∧
        (m.id ≠ .ofAddress a → m ∈ peers)) ∧
    ∀ values n, readPairs values = .ok [(a, n)] →
      ∃ peers, Command.Submits ⟨.setPriority values, request⟩ conf r peers ∧
        peers.map Peer.info = r.group.peers.map Peer.info ∧
        (m.address = a → m.withPriority n ∈ peers) ∧ (m.address ≠ a → m ∈ peers) := by
  obtain ⟨hmem, hdenotes⟩ := peerAt?_eq_some hm
  have hread : ∀ {β : Type} {read : Except AdminError β} {b : β} {f : β → Errand} {errand us},
      read = .ok b → Path (Act.ofExcept (read.map f)).run us (.ok errand) → errand = f b := by
    intro β read b f errand us hb h
    obtain ⟨b', hb', rfl⟩ := exists_read_of_path h
    rw [Except.ok.inj (hb.symm.trans hb')]
  refine ⟨hdenotes, fun values hvalues => ?_, fun values hvalues => ?_, fun values n hvalues => ?_⟩
  · refine ⟨addPeers r.group.peers [a], submits_of_members trivial fun errand us h => ?_,
      addPeers_singleton_of_mem hmem, addPeers_singleton_of_notMem⟩
    rw [hread hvalues h]
    rfl
  · refine ⟨removePeers r.group.peers [a], submits_of_members trivial fun errand us h => ?_,
      removePeers_singleton_of_mem hmem, mem_removePeers_singleton hmem⟩
    rw [hread hvalues h]
    rfl
  · refine ⟨r.group.peers.map (prioritize [(a, n)]),
      submits_of_members trivial fun errand us h => ?_, map_info_prioritize _ _, fun haddress => ?_,
      fun haddress => ?_⟩
    · rw [hread hvalues h]
      rfl
    · exact List.mem_map.mpr ⟨m, hmem, by simp [prioritize_singleton, haddress]⟩
    · exact List.mem_map.mpr ⟨m, hmem, by simp [prioritize_singleton, haddress]⟩

/-! ### Members whose ids are not derived from their addresses -/

/-- The first member has no id that is derived from an address, and the third has one that is
derived from another address. -/
def unlike : Group :=
  .of .bootstrap
    [⟨⟨"n1"⟩, ⟨"h1", 9870⟩, 0⟩, .ofAddress ⟨"h2", 9870⟩, ⟨⟨"h3_9870"⟩, ⟨"h4", 9870⟩, 0⟩]

/-- A session over a cluster with this group. -/
def unlikeSession : Session Cluster := .start (Cluster.empty.addGroup unlike none) .empty none

/-- A command about this group. -/
def unlikeCommand (task : Task) : Command := ⟨task, ⟨some "h2:9870", none, none⟩⟩

/-- The conversation of a command with this cluster. -/
def unlikeTurns (task : Task) : List Turn :=
  (Shell.execute .empty (unlikeCommand task)).turns Cluster.world unlikeSession

/-- The exit code of a task for this group, and what it submits. -/
def unlikeOutcome (task : Task) : Int × List (GroupId × List Peer) :=
  let ended := (Shell.execute .empty (unlikeCommand task)).run Cluster.world unlikeSession
  (ended.1, ended.2.cluster.submitted)

/-- A command that succeeds over this cluster has resolved this group. -/
theorem exists_resolves_unlike {task : Task} (hcode : (unlikeOutcome task).1 = exitOk) :
    ∃ errand r zs, (unlikeCommand task).Resolves .empty (unlikeTurns task) errand r zs ∧
      r.group = unlike := by
  have hpath : Path (Shell.execute .empty (unlikeCommand task)) (unlikeTurns task) exitOk :=
    hcode ▸ Script.path_run Cluster.world _ unlikeSession
  obtain ⟨errand, r, zs, hresolves⟩ := exists_resolves_of_exitOk hpath
  refine ⟨errand, r, zs, hresolves, ?_⟩
  exact Cluster.eq_of_group?_addGroup
    (group?_of_resolves (Script.replies_run Cluster.world _ unlikeSession) hresolves)

/-- The second member is told alike by its id and by its address. -/
theorem submits_at_address_unlike :
    let removal : Task := .quorumRemove ["h2:9870"]
    let ranking : Task := .setPriority ["h2:9870,5"]
    (∃ errand r zs peers,
      (unlikeCommand removal).Resolves .empty (unlikeTurns removal) errand r zs ∧
      (unlikeCommand removal).Submits .empty r peers ∧
      peers.map (·.id.text) = ["n1", "h3_9870"]) ∧
    ∃ errand r zs peers,
      (unlikeCommand ranking).Resolves .empty (unlikeTurns ranking) errand r zs ∧
      (unlikeCommand ranking).Submits .empty r peers ∧
      (Peer.ofAddress ⟨"h2", 9870⟩).withPriority 5 ∈ peers := by
  intro removal ranking
  have hm : unlike.peerAt? ⟨"h2", 9870⟩ = some (.ofAddress ⟨"h2", 9870⟩) := rfl
  constructor
  · have hcode : (unlikeOutcome removal).1 = exitOk := by decide +kernel
    obtain ⟨errand, r, zs, hresolves, hgroup⟩ := exists_resolves_unlike hcode
    obtain ⟨-, -, hremove, -⟩ :=
      submits_at_address (hgroup ▸ hm) .empty (unlikeCommand removal).group
    obtain ⟨peers, hsubmits, hwithout, -⟩ := hremove ["h2:9870"] rfl
    refine ⟨errand, r, zs, peers, hresolves, hsubmits, ?_⟩
    rw [hwithout rfl, hgroup]
    decide
  · have hcode : (unlikeOutcome ranking).1 = exitOk := by decide +kernel
    obtain ⟨errand, r, zs, hresolves, hgroup⟩ := exists_resolves_unlike hcode
    obtain ⟨-, -, -, hrank⟩ :=
      submits_at_address (hgroup ▸ hm) .empty (unlikeCommand ranking).group
    obtain ⟨peers, hsubmits, -, hpriority, -⟩ := hrank ["h2:9870,5"] 5 rfl
    exact ⟨errand, r, zs, peers, hresolves, hsubmits, hpriority rfl⟩

/-- **Commands that disagree.** The address of the first member denotes it, but adding this address
adds another member, and removing it removes none. The address from which the id of the third is
derived denotes this member, but setting a priority for the address leaves its priority. All three
commands succeed. -/
theorem exists_unlike_members :
    ∃ first third, unlike.peerAt? ⟨"h1", 9870⟩ = some first ∧
      unlike.peerAt? ⟨"h3", 9870⟩ = some third ∧
      unlikeOutcome (.quorumAdd ["h1:9870"])
        = (exitOk, [(.bootstrap, unlike.peers ++ [.ofAddress ⟨"h1", 9870⟩])]) ∧
      unlikeOutcome (.quorumRemove ["h1:9870"]) = (exitOk, [(.bootstrap, unlike.peers)]) ∧
      first ∈ unlike.peers ∧
      unlikeOutcome (.setPriority ["h3:9870,5"]) = (exitOk, [(.bootstrap, unlike.peers)]) ∧
      third.withPriority 5 ∉ unlike.peers := by
  refine ⟨_, _, rfl, rfl, ?_, ?_, ?_, ?_, ?_⟩ <;> decide +kernel

end RaftAdmin
