import RaftAdmin.Shell.Execute

/-!
# Errands

A command goes in three steps. It reads its arguments, which tells its errand; it resolves its
group; and it does its errand with this group. The first step asks nobody, and the last is a matter
of the errand and the group alone.

## What is proved

* **`act_eq`** — every command goes in these three steps.
* `mem_map_id_addPeers` — who is a member after peers were added.
* `Errand.distinct_members` — the members that an errand submits have distinct ids.
-/

namespace RaftAdmin

/-- What a command is to do with its group, once its arguments are read. -/
inductive Errand where
  /-- Show the group. -/
  | inspect
  /-- Make the member at an address the leader, after a pause and within a time. -/
  | lead (target : PeerAddress) (settle timeout : Nat)
  /-- Add the peers at addresses. -/
  | add (addresses : List PeerAddress)
  /-- Remove the peers at addresses. -/
  | remove (addresses : List PeerAddress)
  /-- Set the priorities of the members at addresses. -/
  | rank (pairs : List (PeerAddress × UInt32))

/-! ### Reading the arguments -/

namespace Task

/-- Reads the arguments of a task. -/
def errand (c : Configuration) : Task → Act Errand
  | .info => pure .inspect
  | .elect address? => do
    let target ← Act.ofExcept (readTarget address?)
    let settle ← readDuration c .electSettleDelay
    let timeout ← readDuration (c.afterReading .electSettleDelay) .electTransferTimeout
    pure (.lead target settle timeout)
  | .quorumAdd values => Act.ofExcept ((readAddresses .addPeer values).map .add)
  | .quorumRemove values => Act.ofExcept ((readAddresses .removePeer values).map .remove)
  | .setPriority values => Act.ofExcept ((readPairs values).map .rank)

/-- The configuration after reading the arguments of a task. -/
def configured (c : Configuration) : Task → Configuration
  | .elect _ => (c.afterReading .electSettleDelay).afterReading .electTransferTimeout
  | _ => c

/-- Whether a task is to change members or their priorities, and nothing else. -/
def ChangesMembers : Task → Prop
  | .info => False
  | .elect _ => False
  | _ => True

end Task

/-! ### Doing the errand -/

/-- Asks the first member about its group and shows what it says. -/
def tellInfo (r : ResolvedGroup) : Act Int :=
  match r.group.peers with
  | [] => throw (.noReachablePeer Inquiry.groupInfo.text [])
  | first :: _ => do
    let info ← Act.answered (← Act.perform (.groupInfo r.contactGroup first r.group.id))
    checkReply info.reply "failed to get info"
    showInfo info
    pure exitOk

namespace Errand

/-- Does an errand with a resolved group. -/
def run (r : ResolvedGroup) : Errand → Act Int
  | .inspect => do
    Act.say ["group id: ", r.group.id.text]
    Act.connected r.contactGroup (tellInfo r)
  | .lead target settle timeout =>
    match r.group.peerAt? target with
    | none => throw (notInQuorum target r.group)
    | some member => handOver r member settle timeout
  | .add addresses => do
    Act.logAll ((knownIds r.group.peers addresses).map (alreadyMember r.group.id))
    submitMembers r (addPeers r.group.peers addresses) "failed to add raft peer"
  | .remove addresses =>
    submitMembers r (removePeers r.group.peers addresses) "failed to remove raft peer"
  | .rank pairs => do
    Act.logAll ((strangers r.group.peers pairs).map (ignoredAddress r.group.id))
    submitMembers r (r.group.peers.map (prioritize pairs)) "failed to set peer priorities"

/-- The members that an errand submits for a group, if it submits any. -/
def members? (g : Group) : Errand → Option (List Peer)
  | .inspect => none
  | .lead target _ _ => (g.peerAt? target).map fun member => preferring member.id g.peers
  | .add addresses => some (addPeers g.peers addresses)
  | .remove addresses => some (removePeers g.peers addresses)
  | .rank pairs => some (g.peers.map (prioritize pairs))

/-- Whether an errand is one of a task. -/
def Serves : Errand → Task → Prop
  | .inspect, .info => True
  | .lead _ _ _, .elect _ => True
  | .add _, .quorumAdd _ => True
  | .remove _, .quorumRemove _ => True
  | .rank _, .setPriority _ => True
  | _, _ => False

/-- Whether an errand is to change members or their priorities, and nothing else. -/
def ChangesMembers : Errand → Prop
  | .inspect => False
  | .lead _ _ _ => False
  | _ => True

theorem Serves.changesMembers {errand : Errand} {task : Task} (h : errand.Serves task)
    (htask : task.ChangesMembers) : errand.ChangesMembers := by
  cases task with
  | info => exact htask.elim
  | elect address? => exact htask.elim
  | _ =>
    cases errand with
    | inspect => exact h.elim
    | lead target settle timeout => exact h.elim
    | _ => trivial

theorem Serves.eq_inspect {errand : Errand} (h : errand.Serves .info) : errand = .inspect := by
  cases errand with
  | inspect => rfl
  | _ => exact h.elim

end Errand

/-- **The three steps of a command.** It reads its arguments, resolves its group, and does its
errand. -/
theorem act_eq (command : Command) (c : Configuration) :
    command.act c = (do
      let errand ← command.task.errand c
      let r ← Resolution.resolve (command.task.configured c) command.group
      errand.run r) := by
  obtain ⟨task, request⟩ := command
  cases task with
  | info => rfl
  | elect address? =>
    simp only [Command.act, runElect, Task.errand, readDuration]
    cases readTarget address? with
    | error e => rfl
    | ok target =>
      cases c.getDuration .electSettleDelay with
      | error e => rfl
      | ok settle =>
        cases (c.afterReading .electSettleDelay).getDuration .electTransferTimeout <;> rfl
  | quorumAdd values =>
    simp only [Command.act, runQuorumAdd, Task.errand]
    cases readAddresses .addPeer values <;> rfl
  | quorumRemove values =>
    simp only [Command.act, runQuorumRemove, Task.errand]
    cases readAddresses .removePeer values <;> rfl
  | setPriority values =>
    simp only [Command.act, runSetPriority, Task.errand]
    cases readPairs values <;> rfl

/-! ### The members that an errand submits -/

theorem prioritize_id (pairs : List (PeerAddress × UInt32)) (p : Peer) :
    (prioritize pairs p).id = p.id := by
  unfold prioritize
  split <;> rfl

/-- Members that only change otherwise keep their distinct ids. -/
theorem distinct_map {f : Peer → Peer} (hf : ∀ p, (f p).id = p.id) {ps : List Peer}
    (h : ps.Pairwise fun p q => p.id ≠ q.id) : (ps.map f).Pairwise fun p q => p.id ≠ q.id := by
  rw [List.pairwise_map]
  simpa only [hf] using h

theorem distinct_addPeer {ps : List Peer} (h : ps.Pairwise fun p q => p.id ≠ q.id)
    (a : PeerAddress) : (addPeer ps a).Pairwise fun p q => p.id ≠ q.id := by
  unfold addPeer
  split
  · exact h
  · next hnew =>
    simp only [List.any_eq_true, decide_eq_true_eq, not_exists, not_and] at hnew
    refine List.pairwise_append.mpr ⟨h, List.pairwise_singleton _ _, fun p hp q hq => ?_⟩
    obtain rfl := List.mem_singleton.mp hq
    exact hnew p hp

theorem distinct_addPeers {ps : List Peer} (h : ps.Pairwise fun p q => p.id ≠ q.id)
    (addresses : List PeerAddress) :
    (addPeers ps addresses).Pairwise fun p q => p.id ≠ q.id := by
  unfold addPeers
  induction addresses generalizing ps with
  | nil => exact h
  | cons a as ih => exact ih (distinct_addPeer h a)

/-- The members after peers were added: those before, and the peers. -/
theorem mem_map_id_addPeers {ps : List Peer} {addresses : List PeerAddress} {peer : PeerId} :
    peer ∈ (addPeers ps addresses).map Peer.id ↔
      peer ∈ ps.map Peer.id ∨ peer ∈ addresses.map PeerId.ofAddress := by
  unfold addPeers
  induction addresses generalizing ps with
  | nil => simp
  | cons a as ih =>
    rw [List.foldl_cons, ih, List.map_cons, List.mem_cons]
    unfold addPeer
    split
    · next hknown =>
      simp only [List.any_eq_true, decide_eq_true_eq] at hknown
      obtain ⟨p, hp, hid⟩ := hknown
      constructor
      · rintro (h | h)
        · exact .inl h
        · exact .inr (.inr h)
      · rintro (h | rfl | h)
        · exact .inl h
        · exact .inl (List.mem_map.mpr ⟨p, hp, hid⟩)
        · exact .inr h
    · simp [Peer.ofAddress, or_assoc]

/-- The members that an errand submits have distinct ids. -/
theorem Errand.distinct_members {errand : Errand} {g : Group} {peers : List Peer}
    (h : errand.members? g = some peers) : peers.Pairwise fun p q => p.id ≠ q.id := by
  cases errand with
  | inspect => cases h
  | lead target settle timeout =>
    obtain ⟨member, -, rfl⟩ := Option.map_eq_some_iff.mp h
    have hid : ∀ p : Peer, (p.withPriority
        (if p.id = member.id then targetPriority else otherPriority)).id = p.id := fun _ => rfl
    exact distinct_map hid g.distinct
  | add addresses =>
    obtain rfl := Option.some.inj h
    exact distinct_addPeers g.distinct addresses
  | remove addresses =>
    obtain rfl := Option.some.inj h
    exact g.distinct.filter _
  | rank pairs =>
    obtain rfl := Option.some.inj h
    exact distinct_map (prioritize_id pairs) g.distinct

end RaftAdmin
