import RaftAdmin.Proofs.Command.Cut
import RaftAdmin.Proofs.Command.Denotation
import RaftAdmin.Proofs.Command.Info
import RaftAdmin.Proofs.Configuration.Observation

/-!
# Moving leadership

A command for leadership asks its cluster for two changes, with a pause between them. It may stop at
every line that it writes, and both changes may be declined or get no answer.

## The model

The deeds of a conversation are the changes that were asked for and the pauses that were made.
`Prefers` says which members prefer one of a group, and `Leading` lists what the deeds of a command
for leadership can be, once its group is resolved, and how it then ends.

## What is proved

* `prefers_preferring` — the members that are submitted prefer the target, and it alone.
* `leading_of_resolves` — whoever replies, the deeds are among those listed.
* `led_of_deeds` — over a cluster, deeds that go well make the target the leader.
* **`elect_leads`** — what a command for leadership does, and who leads when it succeeds.
-/

namespace RaftAdmin

open Script (Path Replies)

variable {s t : Session Cluster} {xs ys zs : List Turn} {conf : Configuration} {command : Command}
  {r : ResolvedGroup} {target : PeerAddress} {settle timeout : Nat} {m : Peer} {peers : List Peer}
  {code : Int} {result : Except AdminError Int}

/-! ### Preferring a member -/

/-- These members prefer one of those before. -/
structure Prefers (m : Peer) (members peers : List Peer) : Prop where
  /-- They have the same ids and addresses, in the same order. -/
  info : peers.map Peer.info = members.map Peer.info
  /-- The preferred one has priority 2, and every other has priority 1. -/
  ranks : peers.map Peer.priority = members.map fun p => if p = m then 2 else 1
  /-- So all but this one have a lower priority. -/
  highest : ∃ before after, peers = before ++ m.withPriority 2 :: after ∧
    ∀ p ∈ before ++ after, p.priority < 2

/-- The members that are submitted prefer the target, and it alone. -/
theorem prefers_preferring {g : Group} (hm : m ∈ g.peers) :
    Prefers m g.peers (preferring m.id g.peers) where
  info := map_info_preferring m.id g.peers
  ranks := by
    rw [preferring, List.map_map]
    refine List.map_congr_left fun p hp => ?_
    have hsame : p.id = m.id ↔ p = m := ⟨g.eq_of_id_eq hp hm, congrArg Peer.id⟩
    simp [hsame, Peer.withPriority, targetPriority, otherPriority]
  highest := by
    obtain ⟨before, after, hsplit⟩ := List.append_of_mem hm
    have hothers : ∀ p ∈ before ++ after, p.id ≠ m.id := by
      have hdistinct := hsplit ▸ g.distinct
      rw [List.pairwise_middle fun hne => Ne.symm hne, List.pairwise_cons] at hdistinct
      exact fun p hp => (hdistinct.1 p hp).symm
    refine ⟨preferring m.id before, preferring m.id after, ?_, fun p hp => ?_⟩
    · simp [hsplit, preferring, targetPriority]
    · rw [preferring, preferring, ← List.map_append] at hp
      obtain ⟨q, hq, rfl⟩ := List.mem_map.mp hp
      rw [if_neg (hothers q hq)]
      show otherPriority < 2
      decide

/-! ### Deeds -/

/-- Whether an action asks for a change, or waits. -/
def Action.acts : Action → Bool
  | .setConfiguration _ _ => true
  | .transferLeadership _ _ _ => true
  | .sleep _ => true
  | _ => false

/-- The changes that were asked for in a conversation and the pauses that were made, in order. -/
def Turn.deeds (xs : List Turn) : List Turn := xs.filter (·.action.acts)

theorem Turn.deeds_append (xs ys : List Turn) :
    Turn.deeds (xs ++ ys) = Turn.deeds xs ++ Turn.deeds ys := List.filter_append xs ys

/-- Nothing is done while a group is looked for. -/
theorem deeds_of_inquires (h : ∀ x ∈ xs, x.action.Inquires) : Turn.deeds xs = [] := by
  refine List.filter_eq_nil_iff.mpr fun x hx => ?_
  obtain ⟨action, reply⟩ := x
  cases action with
  | setConfiguration group peers => exact (h _ hx).elim
  | transferLeadership group target timeout => exact (h _ hx).elim
  | sleep ms => exact (h _ hx).elim
  | _ => exact Bool.false_ne_true

theorem deeds_of_reporting (h : Reporting command result xs code) : Turn.deeds xs = [] := by
  cases h <;> rfl

/-- What the deeds of a command for leadership can be once its group is resolved, and how it then
ends. -/
inductive Leading (r : ResolvedGroup) (target : PeerAddress) (settle timeout : Nat)
    (zs : List Turn) (code : Int) : List Turn → Prop where
  /-- No member is at the target. -/
  | stranger (hnone : r.group.peerAt? target = none) (hcode : code ≠ exitOk) :
      Leading r target settle timeout zs code []
  /-- A member is there, but the connection is refused, or a line cannot be written. -/
  | unsubmitted {m : Peer} (hmember : r.group.peerAt? target = some m)
      (hcause : (∃ failure, ⟨.connect r.contactGroup, .error failure⟩ ∈ zs) ∨ ∃ z ∈ zs, z.Unwritten)
      (hcode : code ≠ exitOk) :
      Leading r target settle timeout zs code []
  /-- Members that prefer it are submitted, but they are not accepted, or a line cannot be
  written. -/
  | submitted {m : Peer} {peers : List Peer} (reply : Except RpcFailure ClientReply)
      (hmember : r.group.peerAt? target = some m) (hprefers : Prefers m r.group.peers peers)
      (hcause : ¬ Turn.Accepts ⟨.setConfiguration r.contactGroup peers, reply⟩ ∨
        ∃ z ∈ zs, z.Unwritten)
      (hcode : code ≠ exitOk) :
      Leading r target settle timeout zs code [⟨.setConfiguration r.contactGroup peers, reply⟩]
  /-- They are accepted, and after a pause it is to lead. -/
  | transferred {m : Peer} {peers : List Peer} (accepted : ClientReply)
      (reply : Except RpcFailure ClientReply) (hmember : r.group.peerAt? target = some m)
      (hprefers : Prefers m r.group.peers peers) (haccepted : accepted.success = true)
      (hcode : code = exitOk →
        Turn.Yields ⟨.transferLeadership r.contactGroup m.id timeout, reply⟩) :
      Leading r target settle timeout zs code
        [⟨.setConfiguration r.contactGroup peers, .ok accepted⟩, ⟨.sleep settle, ()⟩,
          ⟨.transferLeadership r.contactGroup m.id timeout, reply⟩]

/-- The deeds of a transfer. -/
theorem deeds_of_transferring {group : Group} {id : PeerId}
    (h : Transferring group id timeout xs result) :
    ∃ reply, Turn.deeds xs = [⟨.transferLeadership group id timeout, reply⟩] ∧
      (result = .ok exitOk → Turn.Yields ⟨.transferLeadership group id timeout, reply⟩) := by
  cases h with
  | unanswered failure written =>
    exact ⟨_, rfl, fun hok => absurd hok (told_exitError_ne written)⟩
  | declined reply shown written hreply =>
    exact ⟨_, rfl, fun hok => absurd hok (told_exitError_ne written)⟩
  | accepted reply written hreply => exact ⟨_, rfl, fun _ => hreply⟩

/-- The deeds over the connection to the resolved group. -/
theorem leading_of_handingOver (hmember : r.group.peerAt? target = some m)
    (h : HandingOver r m settle timeout ys result) (hys : ∀ y ∈ ys, y ∈ zs)
    (hcode : code = exitOk ↔ result = .ok exitOk) :
    Leading r target settle timeout zs code (Turn.deeds ys) := by
  have hprefers := prefers_preferring (peerAt?_eq_some hmember).1
  cases h with
  | unannounced cause =>
    exact .unsubmitted hmember (.inr ⟨_, hys _ (.head _), trivial⟩) (by simp [hcode])
  | unanswered failure => exact .submitted _ hmember hprefers (.inl id) (by simp [hcode])
  | declined reply written hreply =>
    exact .submitted _ hmember hprefers (.inl (by simp [Turn.Accepts, hreply])) (by simp [hcode])
  | untold reply cause hreply =>
    have hunwritten : ∃ z ∈ zs, z.Unwritten :=
      ⟨_, hys _ (.tail _ (.tail _ (.head _))), trivial⟩
    exact .submitted _ hmember hprefers (.inr hunwritten) (by simp [hcode])
  | asked reply hreply htransferring =>
    obtain ⟨answer, hdeeds, hyields⟩ := deeds_of_transferring htransferring
    rw [Turn.deeds_append, hdeeds]
    exact .transferred reply answer hmember hprefers hreply fun hok => hyields (hcode.mp hok)

/-- Whoever replies, the deeds of a command for leadership are among those listed. -/
theorem leading_of_resolves (h : Path (Shell.execute conf command) xs code)
    (hresolves : command.Resolves conf xs (.lead target settle timeout) r zs) :
    Leading r target settle timeout zs code (Turn.deeds xs) := by
  obtain ⟨ys, result, tail, hdoing, hreporting, rfl⟩ := doing_of_resolves h hresolves
  obtain ⟨-, us, hus, rfl, -⟩ := exists_of_resolves hresolves
  have hcode := exitOk_iff_of_reporting hreporting
  -- only the errand itself has deeds
  rw [Turn.deeds_append, deeds_of_inquires hus, Turn.deeds_append, deeds_of_reporting hreporting,
    List.append_nil, List.nil_append]
  cases hdoing with
  | stranger _ _ _ hnone => exact .stranger hnone (by simp [hcode])
  | submit _ context events hchanges => exact hchanges.elim
  | lead _ _ _ hmember hconnected =>
    rcases hconnected with ⟨failure, rfl, rfl⟩ | ⟨ws, hhanding, rfl⟩
    · exact .unsubmitted hmember (.inl ⟨failure, by simp⟩) (by simp [hcode])
    · have hmem : ∀ w ∈ ws, w ∈ ⟨.connect r.contactGroup, .ok ()⟩ :: ws
          ++ [⟨.disconnect r.contactGroup, ()⟩] ++ tail := fun w hw => by simp [hw]
      have hleading := leading_of_handingOver hmember hhanding hmem hcode
      simpa [Turn.deeds, Action.acts] using hleading

/-! ### Over a cluster -/

/-- What is no deed leaves a cluster untouched. -/
theorem untouched_of_deeds (h : Replies Cluster.world s xs t) (hdeeds : Turn.deeds xs = []) :
    s.cluster.Untouched t.cluster := by
  refine untouched_of_asks h fun x hx => ?_
  have hacts := List.filter_eq_nil_iff.mp hdeeds x hx
  obtain ⟨action, reply⟩ := x
  cases action with
  | setConfiguration group peers => exact absurd rfl hacts
  | transferLeadership group target timeout => exact absurd rfl hacts
  | _ => trivial

/-- So does a conversation until its first deed, and the rest is said after the reply to this. -/
theorem exists_of_deeds_cons {x : Turn} (h : Replies Cluster.world s xs t)
    (hdeeds : Turn.deeds xs = x :: ys) :
    ∃ u vs, s.cluster.Untouched u.cluster ∧ x.reply = (Cluster.world.answer x.action u).1 ∧
      Replies Cluster.world (Cluster.world.answer x.action u).2 vs t ∧ Turn.deeds vs = ys := by
  obtain ⟨us, vs, rfl, hus, -, hvs⟩ := List.filter_eq_cons_iff.mp hdeeds
  obtain ⟨u, hbefore, hrest⟩ := Script.replies_append_iff.mp h
  obtain ⟨hreply, hafter⟩ := Script.replies_cons_iff.mp hrest
  exact ⟨u, vs, untouched_of_deeds hbefore (List.filter_eq_nil_iff.mpr hus), hreply, hafter, hvs⟩

/-- Deeds that go well make the target the leader of a group with the members that were
submitted. -/
theorem led_of_deeds {accepted : ClientReply} {reply : Except RpcFailure ClientReply}
    (h : Replies Cluster.world s xs t)
    (hdeeds : Turn.deeds xs = [⟨.setConfiguration r.contactGroup peers, .ok accepted⟩,
      ⟨.sleep settle, ()⟩, ⟨.transferLeadership r.contactGroup m.id timeout, reply⟩])
    (haccepted : accepted.success = true)
    (hyields : Turn.Yields ⟨.transferLeadership r.contactGroup m.id timeout, reply⟩) :
    t.cluster.leader? r.group.id = some m.id ∧
      t.cluster.group? r.group.id = some (.of r.group.id peers) := by
  obtain ⟨u, us, -, hsubmitted, hafter, hrest⟩ := exists_of_deeds_cons h hdeeds
  obtain ⟨v, vs, hunchanged, -, hpaused, hlast⟩ := exists_of_deeds_cons hafter hrest
  obtain ⟨w, ws, hstill, hasked, htransferred, hnone⟩ := exists_of_deeds_cons hpaused hlast
  obtain _ | answer := reply
  · exact hyields.elim
  have hconfigured : (u.cluster.configure r.group.id peers).state.group? r.group.id
      = some (.of r.group.id peers) := Cluster.group?_of_accepted (Eq.symm hsubmitted) haccepted
  -- the pause is no change, so the target is asked for among the members that were submitted
  have hbetween : (u.cluster.configure r.group.id peers).state.Untouched w.cluster :=
    hunchanged.trans hstill
  have hmembers : w.cluster.group? r.group.id = some (.of r.group.id peers) := by
    rwa [Cluster.group?, hbetween.state?]
  obtain ⟨hleader, hgroup⟩ : (w.cluster.transfer r.group.id m.id timeout).state.leader? r.group.id
      = some m.id ∧ (w.cluster.transfer r.group.id m.id timeout).state.group? r.group.id
        = w.cluster.group? r.group.id := Cluster.leader?_of_accepted (Eq.symm hasked) hyields
  have hend : (w.cluster.transfer r.group.id m.id timeout).state.Untouched t.cluster :=
    untouched_of_deeds htransferred hnone
  rw [Cluster.leader?, Cluster.group?, hend.state?]
  exact ⟨hleader, hgroup.trans hmembers⟩

/-! ### Commands -/

/-- A read does not affect another. -/
theorem getDuration_afterReading (c : Configuration) (k k' : PropertyKey) :
    (c.afterReading k).getDuration k' = c.getDuration k' :=
  Configuration.Alike.read (.afterRead c (x := .get .duration k) trivial trivial) k' .duration

section

variable {address? : Option String} {request : GroupRequest} {errand : Errand}

/-- So the deeds of a command for leadership are told by its address and the configuration. -/
theorem leading_of_path (h : Path (Shell.execute conf ⟨.elect address?, request⟩) xs code)
    (hresolves : Command.Resolves ⟨.elect address?, request⟩ conf xs errand r zs) :
    ∃ target settle timeout, readTarget address? = .ok target ∧
      conf.getDuration .electSettleDelay = .ok settle ∧
      conf.getDuration .electTransferTimeout = .ok timeout ∧
      Leading r target settle timeout zs code (Turn.deeds xs) := by
  have ⟨us, _, herrand, _, _⟩ := hresolves
  obtain ⟨target, settle, timeout, rfl, htarget, hsettle, htimeout⟩ := exists_lead_of_path herrand
  rw [getDuration_afterReading] at htimeout
  exact ⟨target, settle, timeout, htarget, hsettle, htimeout, leading_of_resolves h hresolves⟩

end

/-- **Moving leadership.** Whoever replies, a command for leadership that has resolved its group
goes on as follows. If no member is at its address, then it asks for no change. Else it submits the
members with the same ids and addresses in the same order, of which this one has priority 2 and all
others have priority 1, unless the connection is refused. If they are accepted, then it waits once,
for the span of time that is configured, and asks once for this member to lead, within the time that
is configured, and for no other change; it may only stop earlier where a line cannot be written.
Over a cluster, if it succeeds then this member leads the group, and those that were submitted are
its members. -/
theorem elect_leads (conf : Configuration) (request : GroupRequest) (address? : Option String) :
    let command : Command := ⟨.elect address?, request⟩
    (∀ xs code errand r zs, Path (Shell.execute conf command) xs code →
      command.Resolves conf xs errand r zs →
      ∃ target settle timeout, readTarget address? = .ok target ∧
        conf.getDuration .electSettleDelay = .ok settle ∧
        conf.getDuration .electTransferTimeout = .ok timeout ∧
        Leading r target settle timeout zs code (Turn.deeds xs)) ∧
    ∀ s : Session Cluster,
      let p := Shell.execute conf command
      let ended := Session.run Cluster.connector p s
      ended.1 = exitOk → ∃ errand r zs target m peers accepted,
        command.Resolves conf (p.turns Cluster.world s) errand r zs ∧
        s.cluster.group? r.group.id = some r.group ∧
        readTarget address? = .ok target ∧ r.group.peerAt? target = some m ∧
        ⟨.setConfiguration r.contactGroup peers, .ok accepted⟩ ∈ p.turns Cluster.world s ∧
        Prefers m r.group.peers peers ∧
        ended.2.cluster.leader? r.group.id = some m.id ∧
        (ended.2.cluster.group? r.group.id).map Group.peers = some peers := by
  intro command
  refine ⟨fun xs code errand r zs hpath hresolves => leading_of_path hpath hresolves, ?_⟩
  intro s p ended hcode
  have hreplies := Script.replies_run Cluster.world p s
  have hpath : Path p (p.turns Cluster.world s) exitOk := hcode ▸ Script.path_run Cluster.world p s
  obtain ⟨errand, r, zs, hresolves⟩ := exists_resolves_of_exitOk hpath
  obtain ⟨target, settle, timeout, htarget, -, -, hleading⟩ := leading_of_path hpath hresolves
  generalize hdeeds : Turn.deeds (p.turns Cluster.world s) = deeds at hleading
  cases hleading with
  | stranger hnone hfailed => exact absurd rfl hfailed
  | unsubmitted hmember hcause hfailed => exact absurd rfl hfailed
  | submitted reply hmember hprefers hcause hfailed => exact absurd rfl hfailed
  | @transferred m peers accepted reply hmember hprefers haccepted hyields =>
    obtain ⟨hleader, hgroup⟩ := led_of_deeds hreplies hdeeds haccepted (hyields rfl)
    have hsubmitted : ⟨.setConfiguration r.contactGroup peers, .ok accepted⟩
        ∈ Turn.deeds (p.turns Cluster.world s) := hdeeds ▸ List.mem_cons_self
    refine ⟨errand, r, zs, target, m, peers, accepted, hresolves,
      group?_of_resolves hreplies hresolves, htarget, hmember, List.mem_of_mem_filter hsubmitted,
      hprefers, hleader, ?_⟩
    exact (congrArg (Option.map Group.peers) hgroup).trans
      (congrArg some (Group.peers_of (Group.distinct_of_info hprefers.info) _))

/-- The spans of time that are configured if nothing else is. -/
theorem getDuration_empty :
    Configuration.empty.getDuration .electSettleDelay = .ok 3000 ∧
      Configuration.empty.getDuration .electTransferTimeout = .ok 60000 := by
  constructor
  · have hraw : Configuration.empty.store.get? .electSettleDelay = some "3000" := by decide +kernel
    have hget := Configuration.get_of_plain hraw (by decide)
    rw [Configuration.getDuration, Configuration.getLong, hget]
    decide +kernel
  · have hraw : Configuration.empty.store.get? .electTransferTimeout = some "60000" := by
      decide +kernel
    have hget := Configuration.get_of_plain hraw (by decide)
    rw [Configuration.getDuration, Configuration.getLong, hget]
    decide +kernel

/-- A task to make the third member the leader, by the address from which its id is derived. -/
def unlikeElection : Task := .elect (some "h3:9870")

theorem exitOk_unlikeElection : (unlikeOutcome unlikeElection).1 = exitOk := by
  obtain ⟨hsettle, htimeout⟩ := getDuration_empty
  rw [← getDuration_afterReading .empty .electSettleDelay] at htimeout
  -- the search for references cannot be computed here, so its results are put in beforehand
  simp only [unlikeOutcome, unlikeCommand, unlikeElection, Shell.execute, Command.act, runElect,
    readDuration, hsettle, htimeout]
  decide +kernel

/-- The third member leads afterwards. -/
theorem elect_leads_unlike :
    let ended := Session.run Cluster.connector
      (Shell.execute .empty (unlikeCommand unlikeElection)) unlikeSession
    (∃ r zs, r.group = unlike ∧
      Leading r ⟨"h3", 9870⟩ 3000 60000 zs exitOk (Turn.deeds (unlikeTurns unlikeElection))) ∧
    ended.2.cluster.leader? .bootstrap = some ⟨"h3_9870"⟩ ∧
    ((ended.2.cluster.group? .bootstrap).map Group.peers).map (List.map Peer.priority)
      = some [1, 1, 2] := by
  intro ended
  obtain ⟨hanyone, hcluster⟩ :=
    elect_leads .empty (unlikeCommand unlikeElection).group (some "h3:9870")
  obtain ⟨hsettle, htimeout⟩ := getDuration_empty
  have htarget : readTarget (some "h3:9870") = .ok ⟨"h3", 9870⟩ := by rfl
  constructor
  · obtain ⟨errand, r, zs, hresolves, hgroup⟩ := exists_resolves_unlike exitOk_unlikeElection
    have hpath : Path (Shell.execute .empty (unlikeCommand unlikeElection))
        (unlikeTurns unlikeElection) exitOk :=
      exitOk_unlikeElection ▸ Script.path_run Cluster.world _ unlikeSession
    obtain ⟨target, settle, timeout, htarget', hsettle', htimeout', hleading⟩ :=
      hanyone _ _ _ _ _ hpath hresolves
    obtain rfl := Except.ok.inj (htarget.symm.trans htarget')
    obtain rfl := Except.ok.inj (hsettle.symm.trans hsettle')
    obtain rfl := Except.ok.inj (htimeout.symm.trans htimeout')
    exact ⟨r, zs, hgroup, hleading⟩
  · obtain ⟨errand, r, zs, target, m, peers, accepted, hresolves, hgroup, htarget', hmember, -,
      hprefers, hleader, hpeers⟩ := hcluster unlikeSession exitOk_unlikeElection
    obtain rfl := Except.ok.inj (htarget.symm.trans htarget')
    have hunlike : r.group = unlike := Cluster.eq_of_group?_addGroup hgroup
    have hid : r.group.id = .bootstrap := congrArg Group.id hunlike
    rw [hid] at hleader hpeers
    rw [hunlike] at hmember hprefers
    obtain rfl := Option.some.inj (hmember.symm.trans rfl)
    exact ⟨hleader, (congrArg (Option.map (List.map Peer.priority)) hpeers).trans
      (congrArg some hprefers.ranks)⟩

end RaftAdmin
