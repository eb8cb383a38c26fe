import RaftAdmin.Proofs.Command.Course

/-!
# The changes that a command asks for

A command asks the cluster for a change of members at most once, and for a transfer of leadership at
most once and last. This module says over which connection it asks, and what must have happened
before, whoever replies.

## The model

`Command.Reaches` says what must have happened before a change: the group is resolved, and then a
connection to a group with its id was opened, which is still open.

## What is proved

* `amending_of_doing` — what an errand asks for, and in which order.
* **`execute_disciplined`** — the changes that a command asks for are few, go over a connection to
  the resolved group, and a transfer follows the acceptance of members that include its target.
-/

namespace RaftAdmin

open Script (Path)

/-- Whether an action is a request for members. -/
def Action.configures : Action → Bool
  | .setConfiguration _ _ => true
  | _ => false

/-- Whether an action is a request for a leader. -/
def Action.transfers : Action → Bool
  | .transferLeadership _ _ _ => true
  | _ => false

@[simp] theorem Action.configures_setConfiguration (group : Group) (peers : List Peer) :
    (setConfiguration group peers).configures = true := rfl

@[simp] theorem Action.configures_transferLeadership (group : Group) (id : PeerId) (timeout : Nat) :
    (transferLeadership group id timeout).configures = false := rfl

@[simp] theorem Action.transfers_setConfiguration (group : Group) (peers : List Peer) :
    (setConfiguration group peers).transfers = false := rfl

@[simp] theorem Action.transfers_transferLeadership (group : Group) (id : PeerId) (timeout : Nat) :
    (transferLeadership group id timeout).transfers = true := rfl

/-- Whether an action involves neither the cluster nor a connection to it. -/
def Action.Speaks : Action → Prop
  | .print _ => True
  | .sleep _ => True
  | .log _ => True
  | _ => False

theorem Action.Asks.not_configures {action : Action} (h : action.Asks) :
    action.configures = false := by
  cases action with
  | setConfiguration group peers => exact h.elim
  | _ => rfl

theorem Action.Asks.not_transfers {action : Action} (h : action.Asks) :
    action.transfers = false := by
  cases action with
  | transferLeadership group target timeout => exact h.elim
  | _ => rfl

theorem Action.Speaks.asks {action : Action} (h : action.Speaks) : action.Asks := by
  cases action with
  | setConfiguration group peers => exact h
  | transferLeadership group target timeout => exact h
  | _ => trivial

/-! ### What an errand asks for -/

variable {r : ResolvedGroup} {errand : Errand} {xs : List Turn}
  {result : Except AdminError Int}

/-- What is asked for over a connection, for an errand with a resolved group. -/
inductive Amending (r : ResolvedGroup) (errand : Errand) : List Turn → Prop where
  /-- No change is asked for. -/
  | nothing {xs : List Turn} (hxs : ∀ x ∈ xs, x.action.Speaks) : Amending r errand xs
  /-- The members of the errand are submitted. -/
  | members (us : List Turn) {peers : List Peer} (reply : Except RpcFailure ClientReply)
      (vs : List Turn) (hpeers : errand.members? r.group = some peers)
      (hus : ∀ u ∈ us, u.action.Speaks) (hvs : ∀ v ∈ vs, v.action.Speaks) :
      Amending r errand (us ++ ⟨.setConfiguration r.contactGroup peers, reply⟩ :: vs)
  /-- They are submitted and accepted, and then one of them is to lead. -/
  | leader (us : List Turn) (peers : List Peer) (accepted : ClientReply) (vs : List Turn)
      {member : Peer} {target : PeerAddress} {settle timeout : Nat}
      (reply : Except RpcFailure ClientReply) (ws : List Turn)
      (herrand : errand = .lead target settle timeout)
      (hpeers : errand.members? r.group = some peers) (hmember : ∃ p ∈ peers, p.id = member.id)
      (haccepted : accepted.success = true) (hus : ∀ u ∈ us, u.action.Speaks)
      (hvs : ∀ v ∈ vs, v.action.Speaks) (hws : ∀ w ∈ ws, w.action.Speaks) :
      Amending r errand
        (us ++ ⟨.setConfiguration r.contactGroup peers, .ok accepted⟩ ::
          (vs ++ ⟨.transferLeadership r.contactGroup member.id timeout, reply⟩ :: ws))

theorem amending_of_submitting {peers : List Peer} {context : String}
    (hpeers : errand.members? r.group = some peers) (h : Submitting r peers context xs result) :
    Amending r errand xs := by
  cases h with
  | unanswered failure => exact .members [] _ [] hpeers (by simp) (by simp)
  | declined reply written hreply =>
    exact .members [] _ [_] hpeers (by simp) (List.forall_mem_singleton.mpr trivial)
  | accepted reply written hreply =>
    exact .members [] _ [_] hpeers (by simp) (List.forall_mem_singleton.mpr trivial)

/-- A preferred member is among those that prefer it. -/
theorem mem_preferring {member : Peer} {peers : List Peer} (h : member ∈ peers) :
    ∃ p ∈ preferring member.id peers, p.id = member.id :=
  ⟨_, List.mem_map.mpr ⟨member, h, rfl⟩, rfl⟩

theorem transferring_asks {group : Group} {id : PeerId} {timeout : Nat}
    (h : Transferring group id timeout xs result) :
    ∃ reply ws, xs = ⟨.transferLeadership group id timeout, reply⟩ :: ws ∧
      ∀ w ∈ ws, w.action.Speaks := by
  cases h with
  | unanswered failure written => exact ⟨_, _, rfl, by simp [Turn.line, Action.Speaks]⟩
  | declined reply shown written hreply =>
    exact ⟨_, _, rfl, by simp [rejectionLine, Turn.line, Action.Speaks]⟩
  | accepted reply written hreply => exact ⟨_, _, rfl, by simp [Turn.line, Action.Speaks]⟩

theorem amending_of_handingOver {member : Peer} {target : PeerAddress} {settle timeout : Nat}
    (hmember : r.group.peerAt? target = some member)
    (h : HandingOver r member settle timeout xs result) :
    Amending r (.lead target settle timeout) xs := by
  have hpeers : (Errand.lead target settle timeout).members? r.group
      = some (preferring member.id r.group.peers) := by
    simp [Errand.members?, hmember]
  have hspeaks : ∀ written, (preferenceLine r member written).action.Speaks := fun _ => trivial
  cases h with
  | unannounced cause => exact .nothing (List.forall_mem_singleton.mpr (hspeaks _))
  | unanswered failure =>
    exact .members [_] _ [] hpeers (List.forall_mem_singleton.mpr (hspeaks _)) (by simp)
  | declined reply written hreply =>
    exact .members [_] _ [_] hpeers (List.forall_mem_singleton.mpr (hspeaks _))
      (List.forall_mem_singleton.mpr trivial)
  | untold reply cause hreply =>
    exact .members [_] _ [_] hpeers (List.forall_mem_singleton.mpr (hspeaks _))
      (List.forall_mem_singleton.mpr trivial)
  | asked reply hreply htransfer =>
    obtain ⟨answer, ws, rfl, hws⟩ := transferring_asks htransfer
    exact .leader [_] _ reply [_, _] answer ws rfl hpeers
      (mem_preferring (List.mem_of_find?_eq_some hmember)) hreply
      (List.forall_mem_singleton.mpr (hspeaks _))
      (by simp [transferLine, Turn.line, Action.Speaks]) hws

theorem speaks_of_writing {lines : List (List String)} {shown : Except AdminError Unit}
    (h : Writing lines xs shown) : ∀ x ∈ xs, x.action.Speaks := by
  induction h with
  | done => simp
  | next line _ ih => exact List.forall_mem_cons.mpr ⟨trivial, ih⟩
  | broken line lines cause => exact List.forall_mem_singleton.mpr trivial

theorem asks_of_telling (h : Telling r xs result) : ∀ x ∈ xs, x.action.Asks := by
  cases h with
  | memberless hpeers => simp
  | unanswered hpeers failure => simp [Action.Asks]
  | declined hpeers info written hreply => simp [rejectionLine, Turn.line, Action.Asks]
  | told hpeers info hreply hwriting =>
    exact List.forall_mem_cons.mpr ⟨trivial, fun x hx => (speaks_of_writing hwriting x hx).asks⟩

/-- An errand asks for no change, or for its changes over one connection to its group. -/
theorem amending_of_doing (h : Doing r errand xs result) :
    (∀ x ∈ xs, x.action.Asks) ∨
      errand ≠ .inspect ∧ ∃ said ys, (∀ x ∈ said, x.action.Asks) ∧ Amending r errand ys ∧
        xs = said ++ ⟨.connect r.contactGroup, .ok ()⟩ :: (ys ++ [⟨.disconnect r.contactGroup, ()⟩])
    := by
  cases h with
  | unshown cause => exact .inl (List.forall_mem_singleton.mpr trivial)
  | inspect hconnected =>
    refine .inl (List.forall_mem_cons.mpr ⟨trivial, ?_⟩)
    rcases hconnected with ⟨failure, rfl, rfl⟩ | ⟨ys, htelling, rfl⟩
    · exact List.forall_mem_singleton.mpr trivial
    · have hys := asks_of_telling htelling
      simpa [or_imp, forall_and, Action.Asks] using hys
  | stranger target settle timeout hnone => exact .inl (by simp)
  | lead target settle timeout hmember hconnected =>
    rcases hconnected with ⟨failure, rfl, rfl⟩ | ⟨ys, hhanding, rfl⟩
    · exact .inl (List.forall_mem_singleton.mpr trivial)
    · exact .inr ⟨nofun, [], ys, by simp, amending_of_handingOver hmember hhanding, rfl⟩
  | submit errand context events hchanges hpeers hconnected =>
    have hevents : ∀ x ∈ events.map (fun event => (⟨.log event, ()⟩ : Turn)), x.action.Asks := by
      simp [Action.Asks]
    rcases hconnected with ⟨failure, rfl, rfl⟩ | ⟨ys, hsubmitting, rfl⟩
    · refine .inl (List.forall_mem_append.mpr ⟨hevents, ?_⟩)
      exact List.forall_mem_singleton.mpr trivial
    · refine .inr ⟨?_, _, ys, hevents, amending_of_submitting hpeers hsubmitting, rfl⟩
      rintro rfl
      exact hchanges

/-! ### What a command asks for -/

variable {conf : Configuration} {command : Command} {code : Int}

/-- In this conversation a command learns its errand, resolves its group, and then opens a
connection to a group, which is still open when it ends. -/
def Command.Reaches (command : Command) (conf : Configuration) (us : List Turn) (errand : Errand)
    (r : ResolvedGroup) (group : Group) : Prop :=
  ∃ said talk, command.Resolves conf us errand r (said ++ ⟨.connect group, .ok ()⟩ :: talk) ∧
    ⟨.disconnect group, ()⟩ ∉ talk

/-- What a command asks for, and when. -/
inductive Command.Amends (command : Command) (conf : Configuration) : List Turn → Prop where
  /-- No change is asked for. -/
  | nothing {xs : List Turn} (hxs : ∀ x ∈ xs, x.action.Asks) : command.Amends conf xs
  /-- Members are submitted. -/
  | members {us vs : List Turn} {errand : Errand} (r : ResolvedGroup) (peers : List Peer)
      (reply : Except RpcFailure ClientReply) (htask : command.task ≠ .info)
      (hreaches : command.Reaches conf us errand r r.contactGroup)
      (hpeers : errand.members? r.group = some peers) (hus : ∀ u ∈ us, u.action.Asks)
      (hvs : ∀ v ∈ vs, v.action.Asks) :
      command.Amends conf (us ++ ⟨.setConfiguration r.contactGroup peers, reply⟩ :: vs)
  /-- They are submitted and accepted, and then one of them is to lead. -/
  | leader {us vs ws : List Turn} {errand : Errand} (r : ResolvedGroup) (peers : List Peer)
      (accepted : ClientReply) (target : PeerId) (timeout : Nat)
      (reply : Except RpcFailure ClientReply) (htask : ∃ address?, command.task = .elect address?)
      (hreaches : command.Reaches conf us errand r r.contactGroup)
      (hstill : command.Reaches conf
        (us ++ ⟨.setConfiguration r.contactGroup peers, .ok accepted⟩ :: vs) errand r
        r.contactGroup)
      (hpeers : errand.members? r.group = some peers) (htarget : ∃ p ∈ peers, p.id = target)
      (haccepted : accepted.success = true) (hus : ∀ u ∈ us, u.action.Asks)
      (hvs : ∀ v ∈ vs, v.action.Asks) (hws : ∀ w ∈ ws, w.action.Asks) :
      command.Amends conf
        (us ++ ⟨.setConfiguration r.contactGroup peers, .ok accepted⟩ ::
          (vs ++ ⟨.transferLeadership r.contactGroup target timeout, reply⟩ :: ws))

theorem not_mem_of_speaks {group : Group} (hxs : ∀ x ∈ xs, x.action.Speaks) :
    ⟨.disconnect group, ()⟩ ∉ xs := fun hx => hxs _ hx

theorem asks_of_reporting {tail : List Turn} (h : Reporting command result tail code) :
    ∀ x ∈ tail, x.action.Asks := by
  cases h with
  | finished code => simp
  | failed e written => simp [Turn.line, Action.Asks]

/-- What is asked for over the connection of an errand is what its command asks for. -/
theorem amends_of_amending {us said ys ends : List Turn} (hserves : errand.Serves command.task)
    (hinspect : errand ≠ .inspect) (hus : ∀ u ∈ us, u.action.Asks)
    (hresolved : ∀ ws, command.Resolves conf (us ++ ws) errand r ws)
    (hsaid : ∀ x ∈ said, x.action.Asks) (hends : ∀ x ∈ ends, x.action.Asks)
    (h : Amending r errand ys) :
    command.Amends conf (us ++ (said ++ ⟨.connect r.contactGroup, .ok ()⟩ :: (ys ++ ends))) := by
  have htask : command.task ≠ .info := fun hinfo => hinspect (hinfo ▸ hserves).eq_inspect
  have hbefore : ∀ vs : List Turn, (∀ v ∈ vs, v.action.Speaks) →
      ∀ x ∈ us ++ (said ++ ⟨.connect r.contactGroup, .ok ()⟩ :: vs), x.action.Asks := by
    intro vs hvs
    refine List.forall_mem_append.mpr ⟨hus, List.forall_mem_append.mpr ⟨hsaid, ?_⟩⟩
    exact List.forall_mem_cons.mpr ⟨trivial, fun v hv => (hvs v hv).asks⟩
  have hreaches : ∀ talk : List Turn, ⟨.disconnect r.contactGroup, ()⟩ ∉ talk →
      command.Reaches conf (us ++ (said ++ ⟨.connect r.contactGroup, .ok ()⟩ :: talk)) errand r
        r.contactGroup :=
    fun talk htalk => ⟨said, talk, hresolved _, htalk⟩
  have hafter : ∀ vs : List Turn, (∀ v ∈ vs, v.action.Speaks) →
      ∀ x ∈ vs ++ ends, x.action.Asks :=
    fun vs hvs => List.forall_mem_append.mpr ⟨fun v hv => (hvs v hv).asks, hends⟩
  cases h with
  | nothing hys =>
    rw [← List.cons_append, ← List.append_assoc, ← List.append_assoc]
    exact .nothing (List.forall_mem_append.mpr ⟨by simpa using hbefore ys hys, hends⟩)
  | members vs reply ws hpeers hvs hws =>
    have hsplit : ∀ x : Turn, us ++ (said ++ ⟨.connect r.contactGroup, .ok ()⟩ ::
        (vs ++ x :: ws ++ ends)) =
        us ++ (said ++ ⟨.connect r.contactGroup, .ok ()⟩ :: vs) ++ x :: (ws ++ ends) := by simp
    rw [hsplit]
    exact .members r _ reply htask (hreaches vs (not_mem_of_speaks hvs)) hpeers (hbefore vs hvs)
      (hafter ws hws)
  | leader vs peers accepted ws reply xs herrand hpeers hmember haccepted hvs hws hxs =>
    subst herrand
    have helect : ∃ address?, command.task = .elect address? := by
      cases htaskeq : command.task with
      | elect address? => exact ⟨address?, rfl⟩
      | _ =>
        rw [htaskeq] at hserves
        exact hserves.elim
    have hsplit : ∀ x y : Turn, us ++ (said ++ ⟨.connect r.contactGroup, .ok ()⟩ ::
        (vs ++ x :: (ws ++ y :: xs) ++ ends)) =
        us ++ (said ++ ⟨.connect r.contactGroup, .ok ()⟩ :: vs) ++
          x :: (ws ++ y :: (xs ++ ends)) := by
      simp
    have hstill := hreaches (vs ++ ⟨.setConfiguration r.contactGroup peers, .ok accepted⟩ :: ws)
      (by simp [not_mem_of_speaks hvs, not_mem_of_speaks hws])
    rw [← List.cons_append, ← List.append_assoc said, ← List.append_assoc us] at hstill
    rw [hsplit]
    exact .leader r peers accepted _ _ reply helect (hreaches vs (not_mem_of_speaks hvs)) hstill
      hpeers hmember haccepted (hbefore vs hvs) (fun w hw => (hws w hw).asks) (hafter xs hxs)

theorem amends_of_path (h : Path (Shell.execute conf command) xs code) :
    command.Amends conf xs := by
  cases course_of_path h with
  | refused e hrefused why how what => exact .nothing (by simp [Turn.line, Action.Asks])
  | unresolved e hys written =>
    have hasks := fun y hy => (hys y hy).asks
    refine .nothing (List.forall_mem_cons.mpr ⟨trivial, List.forall_mem_append.mpr ⟨hasks, ?_⟩⟩)
    simp [Turn.line, Action.Asks]
  | resolved hresolves hdoing hreporting =>
    obtain ⟨hserves, us, hus, rfl, hresolved⟩ := exists_of_resolves hresolves
    have hinquired := fun u hu => (hus u hu).asks
    have htail := asks_of_reporting hreporting
    rcases amending_of_doing hdoing with hzs | ⟨hinspect, said, ys, hsaid, hamending, rfl⟩
    · exact .nothing
        (List.forall_mem_append.mpr ⟨hinquired, List.forall_mem_append.mpr ⟨hzs, htail⟩⟩)
    · rw [List.append_assoc, List.cons_append, List.append_assoc]
      exact amends_of_amending hserves hinspect hinquired hresolved hsaid
        (List.forall_mem_cons.mpr ⟨trivial, htail⟩) hamending

/-! ### The discipline -/

variable {us vs as bs : List Turn}

theorem countP_configures (hxs : ∀ x ∈ xs, x.action.Asks) :
    xs.countP (·.action.configures) = 0 :=
  List.countP_eq_zero.mpr fun x hx => by simp [(hxs x hx).not_configures]

theorem countP_transfers (hxs : ∀ x ∈ xs, x.action.Asks) :
    xs.countP (·.action.transfers) = 0 :=
  List.countP_eq_zero.mpr fun x hx => by simp [(hxs x hx).not_transfers]

/-- What only one turn of a conversation is, is at one place in it. -/
theorem split_unique {P : Turn → Bool} {x y : Turn} (has : ∀ a ∈ as, P a = false)
    (hbs : ∀ b ∈ bs, P b = false) (hy : P y = true) (h : as ++ x :: bs = us ++ y :: vs) :
    us = as ∧ y = x := by
  rcases List.append_eq_append_iff.mp h with ⟨ws, rfl, hrest⟩ | ⟨ws, rfl, hrest⟩
  · cases ws with
    | nil => exact ⟨List.append_nil _, (List.cons.inj hrest).1.symm⟩
    | cons w ws =>
      have hmem : y ∈ bs := by simp [(List.cons.inj hrest).2]
      simp [hbs y hmem] at hy
  · cases ws with
    | nil => exact ⟨(List.append_nil _).symm, (List.cons.inj hrest).1⟩
    | cons w ws =>
      have hmem : y ∈ us ++ w :: ws := by simp [(List.cons.inj hrest).1]
      simp [has y hmem] at hy

theorem countP_of_amends (h : command.Amends conf xs) :
    xs.countP (·.action.configures) ≤ 1 ∧ xs.countP (·.action.transfers) ≤ 1 := by
  cases h with
  | nothing hxs => simp [countP_configures hxs, countP_transfers hxs]
  | members r peers reply htask hreaches hpeers hus hvs =>
    simp [List.countP_cons, countP_configures hus, countP_configures hvs, countP_transfers hus,
      countP_transfers hvs]
  | leader r peers _ _ _ reply htask hreaches hstill hpeers htarget haccepted hus hvs hws =>
    simp [List.countP_cons, countP_configures hus, countP_configures hvs, countP_configures hws,
      countP_transfers hus, countP_transfers hvs, countP_transfers hws]

theorem asks_of_amends (h : command.Amends conf xs) (hinfo : command.task = .info) :
    ∀ x ∈ xs, x.action.Asks := by
  cases h with
  | nothing hxs => exact hxs
  | members r peers reply htask => exact absurd hinfo htask
  | leader r peers accepted target timeout reply htask =>
    obtain ⟨address?, helect⟩ := htask
    cases hinfo.symm.trans helect

/-- Members are submitted over a connection to the resolved group, and have distinct ids. -/
theorem members_of_amends {group : Group} {peers : List Peer}
    {reply : Except RpcFailure ClientReply}
    (h : command.Amends conf (us ++ ⟨.setConfiguration group peers, reply⟩ :: vs)) :
    (∃ errand r, command.Reaches conf us errand r group ∧ group.id = r.group.id) ∧
      peers.Pairwise fun p q => p.id ≠ q.id := by
  generalize hxs : us ++ ⟨.setConfiguration group peers, reply⟩ :: vs = xs at h
  have hmem : ⟨.setConfiguration group peers, reply⟩ ∈ xs := by simp [← hxs]
  cases h with
  | nothing hasks => exact (hasks _ hmem).elim
  | members r _ _ htask hreaches hpeers has hbs =>
    obtain ⟨rfl, heq⟩ := split_unique (fun a ha => (has a ha).not_configures)
      (fun b hb => (hbs b hb).not_configures) rfl hxs.symm
    cases heq
    exact ⟨⟨_, _, hreaches, rfl⟩, Errand.distinct_members hpeers⟩
  | leader r _ _ _ _ _ htask hreaches hstill hpeers htarget haccepted has hbs hcs =>
    obtain ⟨rfl, heq⟩ := split_unique (P := (·.action.configures))
      (fun a ha => (has a ha).not_configures)
      (List.forall_mem_append.mpr ⟨fun b hb => (hbs b hb).not_configures,
        List.forall_mem_cons.mpr ⟨rfl, fun c hc => (hcs c hc).not_configures⟩⟩) rfl hxs.symm
    cases heq
    exact ⟨⟨_, _, hreaches, rfl⟩, Errand.distinct_members hpeers⟩

/-- A leader is asked for over a connection to the resolved group, by a command for this, and from
among the members that were accepted before. -/
theorem leader_of_amends {group : Group} {target : PeerId} {timeout : Nat}
    {reply : Except RpcFailure ClientReply}
    (h : command.Amends conf (us ++ ⟨.transferLeadership group target timeout, reply⟩ :: vs)) :
    (∃ errand r, command.Reaches conf us errand r group ∧ group.id = r.group.id) ∧
      (∃ address?, command.task = .elect address?) ∧
      ∃ peers accepted, ⟨.setConfiguration group peers, .ok accepted⟩ ∈ us ∧
        accepted.success = true ∧ ∃ p ∈ peers, p.id = target := by
  generalize hxs : us ++ ⟨.transferLeadership group target timeout, reply⟩ :: vs = xs at h
  have hmem : ⟨.transferLeadership group target timeout, reply⟩ ∈ xs := by simp [← hxs]
  cases h with
  | nothing hasks => exact (hasks _ hmem).elim
  | members r peers answer htask hreaches hpeers has hbs =>
    rcases List.mem_append.mp hmem with ha | hb
    · exact (has _ ha).elim
    · rcases List.mem_cons.mp hb with heq | hb
      · cases heq
      · exact (hbs _ hb).elim
  | leader r _ _ _ _ answer htask hreaches hstill hpeers htarget haccepted has hbs hcs =>
    rw [← List.cons_append, ← List.append_assoc] at hxs
    obtain ⟨rfl, heq⟩ := split_unique (P := (·.action.transfers))
      (List.forall_mem_append.mpr ⟨fun a ha => (has a ha).not_transfers,
        List.forall_mem_cons.mpr ⟨rfl, fun b hb => (hbs b hb).not_transfers⟩⟩)
      (fun c hc => (hcs c hc).not_transfers) rfl hxs.symm
    cases heq
    exact ⟨⟨_, _, hstill, rfl⟩, htask, _, _, by simp, haccepted, htarget⟩

/-- **The discipline of changes.** Whoever replies, a command asks for members at most once and for
a leader at most once, and one that only shows a group for neither. It asks over a connection to a
group with the id of the one that it has resolved. The members have distinct ids. It asks for a
leader only if that is what it is for, after members were accepted, and for one of these. -/
theorem execute_disciplined {σ : Type} (w : Script.World σ) (conf : Configuration)
    (command : Command) (s : σ) :
    let xs := (Shell.execute conf command).turns w s
    xs.countP (·.action.configures) ≤ 1 ∧ xs.countP (·.action.transfers) ≤ 1 ∧
    (command.task = .info → ∀ x ∈ xs, x.action.Asks) ∧
    (∀ us group peers reply vs, xs = us ++ ⟨.setConfiguration group peers, reply⟩ :: vs →
      (∃ errand r, command.Reaches conf us errand r group ∧ group.id = r.group.id) ∧
      peers.Pairwise fun p q => p.id ≠ q.id) ∧
    ∀ us group target timeout reply vs,
      xs = us ++ ⟨.transferLeadership group target timeout, reply⟩ :: vs →
      (∃ errand r, command.Reaches conf us errand r group ∧ group.id = r.group.id) ∧
      (∃ address?, command.task = .elect address?) ∧
      ∃ peers accepted, ⟨.setConfiguration group peers, .ok accepted⟩ ∈ us ∧
        accepted.success = true ∧ ∃ p ∈ peers, p.id = target := by
  intro xs
  have hamends : command.Amends conf xs := amends_of_path (Script.path_run w _ s)
  obtain ⟨hmembers, hleader⟩ := countP_of_amends hamends
  refine ⟨hmembers, hleader, asks_of_amends hamends, ?_, ?_⟩
  · intro us group peers reply vs hxs
    exact members_of_amends (hxs ▸ hamends)
  · intro us group target timeout reply vs hxs
    exact leader_of_amends (hxs ▸ hamends)

end RaftAdmin
