import RaftAdmin.Proofs.Command.Leadership

/-!
# Who is made the leader

An operator names the member that is to lead by its address. A command for leadership takes the
first member that listens there or has the id that is derived from the address, so that it may take
one that listens elsewhere although another listens there.

## The model

An address is `Shadowed` if the member with its derived id listens elsewhere and comes before all
that listen there. `Chosen` says of a conversation that this member is preferred and asked to lead,
and no other.

## What is proved

* `address_iff_of_peerAt?` — the member that is taken listens at the address, unless it is shadowed.
* `chosen_of_leading` — whoever replies, this is the member that is preferred and asked to lead.
* **`elect_targets`** — what a command for leadership does if some member listens at its address.
* **`exists_wrong_leader`** — a command that makes a member the leader which listens elsewhere.
-/

namespace RaftAdmin

open Script (Path Replies)

variable {xs zs : List Turn} {r : ResolvedGroup} {g : Group} {target a : PeerAddress} {m : Peer}
  {settle timeout : Nat} {code : Int}

/-! ### The member that is taken -/

/-- The member with the id that is derived from the address listens elsewhere, and no member before
it listens there. -/
def Shadowed (a : PeerAddress) (peers : List Peer) : Prop :=
  ∃ before p after, peers = before ++ p :: after ∧ p.id = .ofAddress a ∧ p.address ≠ a ∧
    ∀ q ∈ before, q.address ≠ a

theorem exists_peerAt? (h : ∃ p ∈ g.peers, p.address = a) : ∃ m, g.peerAt? a = some m := by
  obtain ⟨p, hp, haddress⟩ := h
  exact Option.isSome_iff_exists.mp (List.find?_isSome.mpr ⟨p, hp, by simp [haddress]⟩)

/-- The member that is taken listens at the address, unless the address is shadowed. -/
theorem address_iff_of_peerAt? (h : g.peerAt? a = some m) :
    m.address = a ↔ ¬ Shadowed a g.peers := by
  obtain ⟨hmatches, before, after, hpeers, hbefore⟩ := List.find?_eq_some_iff_append.mp h
  have hnone : ∀ q ∈ before, q.address ≠ a ∧ q.id ≠ .ofAddress a := by simpa using hbefore
  constructor
  · rintro haddress ⟨front, p, rest, hsplit, hid, helsewhere, hfront⟩
    -- no match comes before the member that is taken, so the shadowing one comes after it
    rcases List.append_eq_append_iff.mp (hpeers.symm.trans hsplit) with
      ⟨between, rfl, hrest⟩ | ⟨between, rfl, hrest⟩
    · cases between with
      | nil =>
        obtain rfl := (List.cons.inj hrest).1
        exact helsewhere haddress
      | cons q between =>
        obtain rfl := (List.cons.inj hrest).1
        exact hfront m (by simp) haddress
    · cases between with
      | nil =>
        obtain rfl := (List.cons.inj hrest).1
        exact helsewhere haddress
      | cons q between =>
        obtain rfl := (List.cons.inj hrest).1
        exact (hnone p (by simp)).2 hid
  · intro hlit
    by_contra haddress
    have hid : m.id = .ofAddress a := (peerAt?_eq_some h).2.resolve_left haddress
    exact hlit ⟨before, m, after, hpeers, hid, haddress, fun q hq => (hnone q hq).1⟩

/-! ### What is done with it -/

/-- This member is preferred and asked to lead, and no other. -/
structure Chosen (r : ResolvedGroup) (m : Peer) (xs : List Turn) (code : Int) : Prop where
  /-- Members are only submitted if they prefer it. -/
  preferred : ∀ group peers reply, ⟨.setConfiguration group peers, reply⟩ ∈ xs →
    Prefers m r.group.peers peers
  /-- Nobody else is asked to lead. -/
  asked : ∀ group id timeout reply, ⟨.transferLeadership group id timeout, reply⟩ ∈ xs → id = m.id
  /-- If the command succeeds then both was done. -/
  completed : code = exitOk →
    (∃ peers reply, ⟨.setConfiguration r.contactGroup peers, reply⟩ ∈ xs) ∧
      ∃ timeout reply, ⟨.transferLeadership r.contactGroup m.id timeout, reply⟩ ∈ xs
  /-- If it succeeds over a cluster then this member leads. -/
  leads : ∀ s t, Replies Cluster.world s xs t → code = exitOk →
    t.cluster.leader? r.group.id = some m.id

theorem Turn.mem_deeds {x : Turn} (h : x.action.acts = true) : x ∈ Turn.deeds xs ↔ x ∈ xs := by
  simp [Turn.deeds, h]

/-- Whoever replies, the member that is taken is the one that is preferred and asked to lead. -/
theorem chosen_of_leading (h : Leading r target settle timeout zs code (Turn.deeds xs))
    (hmember : r.group.peerAt? target = some m) : Chosen r m xs code := by
  generalize hdeeds : Turn.deeds xs = deeds at h
  have hmem : ∀ x ∈ xs, x.action.acts = true → x ∈ deeds := fun x hx hacts =>
    hdeeds ▸ (Turn.mem_deeds hacts).mpr hx
  have hdone : ∀ x ∈ deeds, x ∈ xs := fun x hx => List.mem_of_mem_filter (hdeeds ▸ hx)
  cases h with
  | stranger hnone hfailed => exact absurd hmember (by simp [hnone])
  | unsubmitted hmember' hcause hfailed =>
    exact {
      preferred := fun group peers reply hx => nomatch hmem _ hx rfl
      asked := fun group id timeout reply hx => nomatch hmem _ hx rfl
      completed := fun hcode => absurd hcode hfailed
      leads := fun _ _ _ hcode => absurd hcode hfailed }
  | submitted answer hmember' hprefers hcause hfailed =>
    obtain rfl := Option.some.inj (hmember.symm.trans hmember')
    exact {
      preferred := fun group peers reply hx => by
        cases List.mem_singleton.mp (hmem _ hx rfl)
        exact hprefers
      asked := fun group id timeout reply hx => by cases List.mem_singleton.mp (hmem _ hx rfl)
      completed := fun hcode => absurd hcode hfailed
      leads := fun _ _ _ hcode => absurd hcode hfailed }
  | transferred accepted answer hmember' hprefers haccepted hyields =>
    obtain rfl := Option.some.inj (hmember.symm.trans hmember')
    exact {
      preferred := fun group peers reply hx => by
        rcases hmem _ hx rfl with _ | ⟨_, _ | ⟨_, hnone⟩⟩
        · exact hprefers
        · nomatch hnone
      asked := fun group id timeout reply hx => by
        rcases hmem _ hx rfl with _ | ⟨_, _ | ⟨_, _ | ⟨_, hnone⟩⟩⟩
        · rfl
        · nomatch hnone
      completed := fun _ =>
        ⟨⟨_, _, hdone _ (.head _)⟩, _, _, hdone _ (.tail _ (.tail _ (.head _)))⟩
      leads := fun s t hreplies hcode =>
        (led_of_deeds hreplies hdeeds haccepted (hyields hcode)).1 }

/-! ### Commands -/

/-- **Who is made the leader.** If some member listens at the address of a command for leadership,
then the command takes a member of its group, prefers it and asks it to lead, and no other, whoever
replies. This member listens at the address, unless the address is shadowed. -/
theorem elect_targets {conf : Configuration} {request : GroupRequest} {address? : Option String}
    {errand : Errand} (hpath : Path (Shell.execute conf ⟨.elect address?, request⟩) xs code)
    (hresolves : Command.Resolves ⟨.elect address?, request⟩ conf xs errand r zs) :
    ∃ target, readTarget address? = .ok target ∧
      ((∃ p ∈ r.group.peers, p.address = target) →
        ∃ m ∈ r.group.peers, Chosen r m xs code ∧
          (m.address = target ↔ ¬ Shadowed target r.group.peers)) := by
  obtain ⟨target, settle, timeout, htarget, -, -, hleading⟩ := leading_of_path hpath hresolves
  refine ⟨target, htarget, fun hlistens => ?_⟩
  obtain ⟨m, hmember⟩ := exists_peerAt? hlistens
  exact ⟨m, (peerAt?_eq_some hmember).1, chosen_of_leading hleading hmember,
    address_iff_of_peerAt? hmember⟩

/-- The id of the first member is derived from the address at which the second one listens. -/
def crossed : Group :=
  .of .bootstrap
    [⟨⟨"h2_9870"⟩, ⟨"h1", 9870⟩, 0⟩, ⟨⟨"n2"⟩, ⟨"h2", 9870⟩, 0⟩, .ofAddress ⟨"h3", 9870⟩]

/-- A session over a cluster with this group. -/
def crossedSession : Session Cluster := .start (Cluster.empty.addGroup crossed none) .empty none

/-- A command to make the second member the leader. -/
def crossedElection : Script Int :=
  Shell.execute .empty ⟨.elect (some "h2:9870"), ⟨some "h3:9870", none, none⟩⟩

/-- The exit code of this command, and the session after it. -/
def crossedOutcome : Int × Session Cluster :=
  Session.run Cluster.connector crossedElection crossedSession

/-- The command succeeds. The first member is preferred, and leads. -/
theorem crossedOutcome_eq :
    crossedOutcome.1 = exitOk ∧
      crossedOutcome.2.cluster.leader? .bootstrap = some ⟨"h2_9870"⟩ ∧
      (crossedOutcome.2.cluster.group? .bootstrap).map Group.peers
        = some [⟨⟨"h2_9870"⟩, ⟨"h1", 9870⟩, 2⟩, ⟨⟨"n2"⟩, ⟨"h2", 9870⟩, 1⟩,
          ⟨⟨"h3_9870"⟩, ⟨"h3", 9870⟩, 1⟩] := by
  obtain ⟨hsettle, htimeout⟩ := getDuration_empty
  rw [← getDuration_afterReading .empty .electSettleDelay] at htimeout
  -- the search for references cannot be computed here, so its results are put in beforehand
  simp only [crossedOutcome, crossedElection, Shell.execute, Command.act, runElect, readDuration,
    hsettle, htimeout]
  decide +kernel

/-- The address of the second member is shadowed, so the command takes the first one. -/
theorem elect_targets_crossed :
    ∃ r m, r.group = crossed ∧ (∃ p ∈ r.group.peers, p.address = ⟨"h2", 9870⟩) ∧
      m ∈ r.group.peers ∧ Chosen r m (crossedElection.turns Cluster.world crossedSession) exitOk ∧
      m.address ≠ ⟨"h2", 9870⟩ := by
  have hcode : crossedOutcome.1 = exitOk := crossedOutcome_eq.1
  have hpath : Path crossedElection (crossedElection.turns Cluster.world crossedSession) exitOk :=
    hcode ▸ Script.path_run Cluster.world crossedElection crossedSession
  obtain ⟨errand, r, zs, hresolves⟩ := exists_resolves_of_exitOk hpath
  have hgroup : r.group = crossed := Cluster.eq_of_group?_addGroup
    (group?_of_resolves (Script.replies_run Cluster.world _ crossedSession) hresolves)
  have hlistens : ∃ p ∈ r.group.peers, p.address = ⟨"h2", 9870⟩ := hgroup ▸ by decide
  have hshadowed : Shadowed ⟨"h2", 9870⟩ r.group.peers :=
    hgroup ▸ ⟨[], _, _, rfl, by decide, by decide, by simp⟩
  obtain ⟨target, htarget, hchosen⟩ := elect_targets hpath hresolves
  obtain rfl : (⟨"h2", 9870⟩ : PeerAddress) = target := Except.ok.inj htarget
  obtain ⟨m, hm, hchosen, haddress⟩ := hchosen hlistens
  exact ⟨r, m, hgroup, hlistens, hm, hchosen, fun h => haddress.mp h hshadowed⟩

/-- **A leader at another address.** A member listens at the address of a command for leadership,
and the command succeeds, but it prefers another member, and this one leads afterwards. -/
theorem exists_wrong_leader :
    ∃ target m, (∃ p ∈ crossed.peers, p.address = target) ∧
      readTarget (some "h2:9870") = .ok target ∧ crossedOutcome.1 = exitOk ∧
      m.address ≠ target ∧ m.priority = 2 ∧
      crossedOutcome.2.cluster.leader? .bootstrap = some m.id ∧
      ∃ peers, (crossedOutcome.2.cluster.group? .bootstrap).map Group.peers = some peers ∧
        m ∈ peers := by
  obtain ⟨hcode, hleader, hpeers⟩ := crossedOutcome_eq
  exact ⟨⟨"h2", 9870⟩, ⟨⟨"h2_9870"⟩, ⟨"h1", 9870⟩, 2⟩, by decide, by rfl, hcode, by decide, rfl,
    hleader, _, hpeers, List.mem_cons_self⟩

end RaftAdmin
