import RaftAdmin.Proofs.Cluster.Change
import RaftAdmin.Proofs.Command.ExitCode
import RaftAdmin.Proofs.Resolution.Cluster
import RaftAdmin.Shell.Run

/-!
# What a command leaves behind

A command either does what it is for, or leaves the cluster as it was. Only one that moves
leadership may stop between its two steps, and then the new priorities stay.

## What is proved

* `group?_of_resolves` — a command works on a group as it is in the cluster.
* `configured_of_replies` — what submitting members comes to.
* **`execute_leaves`** — what a command that fails leaves of the groups of a cluster, and what one
  that succeeds changes.
-/

namespace RaftAdmin

open Script (Path Replies)

variable {s t : Session Cluster} {xs us vs : List Turn} {conf : Configuration} {command : Command}
  {errand : Errand} {r : ResolvedGroup}

/-- The sessions over a cluster. -/
abbrev Cluster.world : Script.World (Session Cluster) := Session.world connector

/-! ### Questions -/

/-- Questions are answered truthfully and leave the groups as they are. -/
theorem truthful_of_asks (h : Replies Cluster.world s xs t) (hxs : ∀ x ∈ xs, x.action.Asks) :
    (∀ x ∈ xs, s.cluster.Truthful x) ∧ s.cluster.Alike t.cluster :=
  h.keeps (I := fun u => s.cluster.Alike u.cluster)
    (fun action u => Cluster.truthful_answer action u) hxs ⟨rfl, rfl⟩

/-- A resolution comes to what can be looked up in the cluster. -/
theorem resolved_of_replies {request : GroupRequest} {found : Except AdminError ResolvedGroup}
    (h : Replies Cluster.world s xs t)
    (hresolve : Path (Resolution.resolve conf request).run xs found) :
    found = (Resolution.plan conf request).bind
      fun (seed, candidates) => s.cluster.resolved seed candidates :=
  Resolution.resolve_eq_of_path hresolve (truthful_of_asks h fun x hx =>
    ((Resolution.only_resolve _ _).of_path hresolve x hx).asks).1

/-- So does that of a command. -/
theorem found_of_resolves {zs : List Turn} (h : Replies Cluster.world s xs t)
    (hresolves : command.Resolves conf xs errand r zs) :
    ((Resolution.plan (command.task.configured conf) command.group).bind
      fun (seed, candidates) => s.cluster.resolved seed candidates) = .ok r := by
  obtain ⟨us, ys, herrand, hresolve, rfl⟩ := hresolves
  obtain ⟨-, hrest⟩ := Script.replies_cons_iff.mp h
  rw [← List.append_assoc] at hrest
  obtain ⟨u, hbefore, -⟩ := Script.replies_append_iff.mp hrest
  have htruthful := (truthful_of_asks hbefore (List.forall_mem_append.mpr
    ⟨fun x hx => (inquires_of_errand herrand x hx).asks,
      fun x hx => ((Resolution.only_resolve _ _).of_path hresolve x hx).asks⟩)).1
  exact (Resolution.resolve_eq_of_path hresolve
    fun x hx => htruthful x (List.mem_append_right _ hx)).symm

/-- A command works on a group as it is in the cluster. -/
theorem group?_of_resolves {zs : List Turn} (h : Replies Cluster.world s xs t)
    (hresolves : command.Resolves conf xs errand r zs) :
    s.cluster.group? r.group.id = some r.group := by
  have hfound := found_of_resolves h hresolves
  cases hplan : Resolution.plan (command.task.configured conf) command.group with
  | error e => simp [hplan, Except.bind] at hfound
  | ok planned =>
    rw [hplan] at hfound
    exact Resolution.group?_of_resolved hfound

/-! ### Submitting members -/

/-- Of some groups, only the first with an id is replaced. -/
def Replaces (id : GroupId) (g g' : GroupState) (gs gs' : List GroupState) : Prop :=
  ∃ before after, gs = before ++ g :: after ∧ (∀ b ∈ before, b.group.id ≠ id) ∧
    gs' = before ++ g' :: after

/-- What submitting members to a cluster comes to: they are accepted for the resolved group as it is
in the cluster, or no group is changed. -/
theorem configured_of_replies {peers : List Peer} {reply : Except RpcFailure ClientReply}
    {group : Group} (hreaches : command.Reaches conf us errand r group)
    (hus : ∀ u ∈ us, u.action.Asks) (hvs : ∀ v ∈ vs, v.action.Asks)
    (h : Replies Cluster.world s (us ++ ⟨.setConfiguration r.contactGroup peers, reply⟩ :: vs) t) :
    (t.cluster.groups = s.cluster.groups ∧
      ∀ accepted, reply = .ok accepted → accepted.success = false) ∨
    reply = .ok .ok ∧ ∃ g, g ∈ s.cluster.groups ∧ g.group = r.group ∧
      Replaces r.group.id g (g.reconfigure r.group.id peers) s.cluster.groups t.cluster.groups := by
  obtain ⟨u, hbefore, hrest⟩ := Script.replies_append_iff.mp h
  obtain ⟨hreply, hafter⟩ := Script.replies_cons_iff.mp hrest
  have hgroups : u.cluster.groups = s.cluster.groups := (truthful_of_asks hbefore hus).2.1
  have hleft := (truthful_of_asks hafter hvs).2.1
  obtain ⟨said, talk, hresolves, -⟩ := hreaches
  have hgroup := group?_of_resolves hbefore hresolves
  rcases u.cluster.configure_cases r.group.id peers with
    ⟨hsame, hdeclined⟩ | ⟨g, hstate, haccepted, hchanged⟩
  · refine .inl ⟨?_, ?_⟩
    · exact hleft.trans (hsame.trans hgroups)
    · rintro accepted rfl
      exact hdeclined accepted hreply.symm
  · obtain ⟨-, before, after, hsplit, hbefore, hupdate⟩ := Cluster.groups_eq_of_state? hstate
    rw [Cluster.group?, Cluster.state?, ← hgroups] at hgroup
    obtain ⟨g', hstate', hr⟩ := Option.map_eq_some_iff.mp hgroup
    obtain rfl := Option.some.inj (hstate.symm.trans hstate')
    refine .inr ⟨hreply.trans haccepted, g, ?_, hr, before, after, hgroups ▸ hsplit, hbefore, ?_⟩
    · rw [← hgroups, hsplit]
      simp
    · exact hleft.trans (hchanged.trans (hupdate _))

/-! ### Commands -/

/-- Preferring a member leaves the ids and addresses of all. -/
theorem map_info_preferring (id : PeerId) (peers : List Peer) :
    (preferring id peers).map Peer.info = peers.map Peer.info := by
  simp [preferring, Peer.info, Peer.withPriority]

/-- The new priorities before a transfer leave the standing of every group. -/
theorem map_standing_of_replaces {g : GroupState} {gs gs' : List GroupState} {peers : List Peer}
    (hled : g.Led) (hgroup : g.group = r.group)
    (hpeers : peers.map Peer.info = r.group.peers.map Peer.info)
    (h : Replaces r.group.id g (g.reconfigure r.group.id peers) gs gs') :
    gs'.map GroupState.standing = gs.map GroupState.standing := by
  obtain ⟨before, after, rfl, -, rfl⟩ := h
  rw [← hgroup] at hpeers ⊢
  simp [GroupState.standing_reconfigure hled hpeers]

theorem map_info_of_serves {address? : Option String} {peers : List Peer} {group : Group}
    (hserves : errand.Serves (.elect address?)) (hpeers : errand.members? group = some peers) :
    peers.map Peer.info = group.peers.map Peer.info := by
  cases errand with
  | lead target settle timeout =>
    obtain ⟨member, -, rfl⟩ := Option.map_eq_some_iff.mp hpeers
    exact map_info_preferring member.id group.peers
  | _ => exact hserves.elim

/-- After whatever else is said, the same group is resolved. -/
theorem resolves_append {zs : List Turn} (h : command.Resolves conf xs errand r zs)
    (ws : List Turn) : command.Resolves conf (xs ++ ws) errand r (zs ++ ws) := by
  obtain ⟨-, us, -, rfl, hresolves⟩ := exists_of_resolves h
  rw [List.append_assoc]
  exact hresolves _

/-- The command has submitted members for the group that it has resolved; this group, and no other,
has got these members, and keeps its leader if it is one of them. -/
def Command.Installs (command : Command) (conf : Configuration) (xs : List Turn)
    (gs gs' : List GroupState) : Prop :=
  ∃ errand r zs peers g g', command.Resolves conf xs errand r zs ∧
    ⟨.setConfiguration r.contactGroup peers, .ok .ok⟩ ∈ zs ∧ Replaces r.group.id g g' gs gs' ∧
    g.group = r.group ∧ g'.group.id = r.group.id ∧ g'.group.peers = peers ∧
    g'.leader? = g.leader?.filter fun id => peers.any fun p => p.id = id

/-- What may have become of the groups of a cluster when a command ends. -/
def Command.Settles (command : Command) (conf : Configuration) (xs : List Turn) (code : Int)
    (gs gs' : List GroupState) : Prop :=
  match command.task with
  | .info => code ≠ exitOk → gs' = gs
  | .elect _ => code ≠ exitOk → gs'.map GroupState.standing = gs.map GroupState.standing
  | _ => (code ≠ exitOk → gs' = gs) ∧ (code = exitOk → command.Installs conf xs gs gs')

theorem settles_of_same {code : Int} {gs : List GroupState}
    (hcode : command.task.ChangesMembers → code ≠ exitOk) : command.Settles conf xs code gs gs := by
  unfold Command.Settles
  cases htask : command.task with
  | info => exact fun _ => rfl
  | elect address? => exact fun _ => rfl
  | _ =>
    rw [htask] at hcode
    exact ⟨fun _ => rfl, fun hok => absurd hok (hcode trivial)⟩

theorem installs_of_replaces {peers : List Peer} {g : GroupState} {gs gs' : List GroupState}
    (hreaches : command.Reaches conf us errand r r.contactGroup)
    (hpeers : errand.members? r.group = some peers) (hgroup : g.group = r.group)
    (h : Replaces r.group.id g (g.reconfigure r.group.id peers) gs gs') :
    command.Installs conf (us ++ ⟨.setConfiguration r.contactGroup peers, .ok .ok⟩ :: vs)
      gs gs' := by
  obtain ⟨said, talk, hresolves, -⟩ := hreaches
  have hself := Group.peers_of (Errand.distinct_members hpeers) r.group.id
  have hcontains :
      (Group.of r.group.id peers).contains = fun id => peers.any fun p => p.id = id := by
    funext id
    rw [Bool.eq_iff_iff, Group.contains_iff, hself]
    simp
  refine ⟨errand, r, _, peers, g, _, resolves_append hresolves _, by simp, h, hgroup, rfl, hself,
    ?_⟩
  exact congrArg (g.leader?.filter ·) hcontains

/-- What a command for leadership leaves, once the new priorities are accepted. -/
theorem standing_of_replies {ids : List GroupId} {peers : List Peer} {address? : Option String}
    {accepted : ClientReply} (hreached : Cluster.Reached ids s.cluster)
    (htask : command.task = .elect address?)
    (hreaches : command.Reaches conf us errand r r.contactGroup)
    (hpeers : errand.members? r.group = some peers) (haccepted : accepted.success = true)
    (hus : ∀ u ∈ us, u.action.Asks) (hvs : ∀ v ∈ vs, v.action.Asks)
    (h : Replies Cluster.world s
      (us ++ ⟨.setConfiguration r.contactGroup peers, .ok accepted⟩ :: vs) t) :
    t.cluster.groups.map GroupState.standing = s.cluster.groups.map GroupState.standing := by
  have hserves : errand.Serves (.elect address?) := by
    obtain ⟨said, talk, hresolves, -⟩ := hreaches
    exact htask ▸ (exists_of_resolves hresolves).1
  rcases configured_of_replies hreaches hus hvs h with
    ⟨-, hdeclined⟩ | ⟨-, g, hg, hgroup, hreplaces⟩
  · simp [hdeclined accepted rfl] at haccepted
  · exact map_standing_of_replaces (hreached.led g hg) hgroup (map_info_of_serves hserves hpeers)
      hreplaces

/-- A run of a command over a reached cluster settles it. -/
theorem settles_of_replies {ids : List GroupId} {code : Int}
    (hreached : Cluster.Reached ids s.cluster) (h : Replies Cluster.world s xs t)
    (hpath : Path (Shell.execute conf command) xs code) (hwritten : ∀ x ∈ xs, ¬ x.Unwritten) :
    command.Settles conf xs code s.cluster.groups t.cluster.groups := by
  have haccepts := fun htask => exitOk_iff_accepts hpath hwritten htask
  cases amends_of_path hpath with
  | nothing hasks =>
    rw [(truthful_of_asks h hasks).2.1]
    refine settles_of_same fun htask hok => ?_
    obtain ⟨x, hx, hxaccepts⟩ := (haccepts htask).mp hok
    exact hxaccepts.not_asks (hasks x hx)
  | members r peers reply htask hreaches hpeers hus hvs =>
    rcases configured_of_replies hreaches hus hvs h with
      ⟨hsame, hdeclined⟩ | ⟨rfl, g, hg, hgroup, hreplaces⟩
    · rw [hsame]
      refine settles_of_same fun htask hok => ?_
      have hxaccepts := (exists_change_iff (fun _ => Turn.Accepts.not_asks) hus hvs).mp
        ((haccepts htask).mp hok)
      cases reply with
      | error failure => exact hxaccepts
      | ok reply => exact Bool.false_ne_true ((hdeclined reply rfl).symm.trans hxaccepts)
    · unfold Command.Settles
      cases htaskeq : command.task with
      | info => exact absurd htaskeq htask
      | elect address? =>
        exact fun _ => standing_of_replies hreached htaskeq hreaches hpeers rfl hus hvs h
      | _ =>
        have hok := (haccepts (by rw [htaskeq]; trivial)).mpr ⟨_, List.mem_append_cons_self, rfl⟩
        exact ⟨fun hne => absurd hok hne,
          fun _ => installs_of_replaces hreaches hpeers hgroup hreplaces⟩
  | leader r peers accepted target timeout reply htask hreaches hstill hpeers htarget haccepted hus
      hvs hws =>
    obtain ⟨address?, htask⟩ := htask
    rw [Command.Settles, htask]
    intro hne
    rw [← List.cons_append, ← List.append_assoc] at h
    obtain ⟨u, hfirst, hrest⟩ := Script.replies_append_iff.mp h
    obtain ⟨hreply, hlast⟩ := Script.replies_cons_iff.mp hrest
    have hstanding := standing_of_replies hreached htask hreaches hpeers haccepted hus hvs hfirst
    have hleft := (truthful_of_asks hlast hws).2.1
    rcases u.cluster.transfer_cases r.group.id target timeout with
      ⟨hsame, -⟩ | ⟨g, -, -, hyields, -⟩
    · rw [← hstanding, hleft]
      exact congrArg _ hsame
    · obtain rfl : reply = .ok .ok := hreply.trans hyields
      refine absurd ((exitOk_iff_yields hpath hwritten htask).mpr ⟨?_, ?_⟩) hne
      · exact ⟨_, List.mem_append_cons_self, haccepted⟩
      · refine ⟨⟨.transferLeadership r.contactGroup target timeout, .ok .ok⟩, ?_, rfl⟩
        simp

/-- The command that words name. -/
def Shell.named? (words : List OsText) : Option Command :=
  match Arguments.read words with
  | .ok line => line.command?
  | .error _ => none

/-- Words that name no command are answered with a text. -/
theorem only_run {words : List OsText} (h : Shell.named? words = none) :
    (Shell.run conf words).Only Action.Asks := by
  unfold Shell.named? at h
  unfold Shell.run
  cases hread : Arguments.read words with
  | error stop => exact (Script.only_call trivial).bind fun _ => trivial
  | ok line =>
    simp only [hread] at h ⊢
    rw [h]
    exact (Script.only_call trivial).bind fun _ => trivial

/-- **What a command leaves behind.** Over a reached cluster, and with a stream that never breaks: a
command that shows a group, adds or removes peers or sets priorities and fails leaves all groups as
they are. One that adds or removes peers or sets priorities and succeeds gives the resolved group
the members it has submitted, keeps the leader if it is one of them, and changes nothing else. One
that moves leadership and fails leaves the leader of every group, and the ids and addresses of its
members. Words either name such a command and run it, or leave all groups as they are. -/
theorem execute_leaves {ids : List GroupId} {s : Session Cluster}
    (hreached : Cluster.Reached ids s.cluster) (hsink : s.sink.limit? = none)
    (conf : Configuration) :
    (∀ command : Command,
      let p := Shell.execute conf command
      let ended := Session.run Cluster.connector p s
      command.Settles conf (p.turns Cluster.world s) ended.1 s.cluster.groups
        ended.2.cluster.groups) ∧
    ∀ words : List OsText,
      match Shell.named? words with
      | some command => Shell.run conf words = Shell.execute conf command
      | none =>
        (Session.run Cluster.connector (Shell.run conf words) s).2.cluster.groups
          = s.cluster.groups := by
  constructor
  · intro command p ended
    have hreplies := Script.replies_run Cluster.world p s
    exact settles_of_replies hreached hreplies (Script.path_run Cluster.world p s)
      (Session.written_of_unlimited hreplies hsink)
  · intro words
    cases hnamed : Shell.named? words with
    | none =>
      have hreplies := Script.replies_run Cluster.world (Shell.run conf words) s
      have hpath := Script.path_run Cluster.world (Shell.run conf words) s
      have hasks := (only_run hnamed).of_path hpath
      exact (truthful_of_asks hreplies hasks).2.1
    | some command =>
      unfold Shell.named? at hnamed
      unfold Shell.run
      cases hread : Arguments.read words with
      | error stop => simp [hread] at hnamed
      | ok line =>
        simp only [hread] at hnamed ⊢
        rw [hnamed]

/-- The group of one member gets the peer that is added. -/
theorem execute_leaves_lone :
    let command : Command := ⟨.quorumAdd ["h2:9870"], ⟨some "h1:9870", none, none⟩⟩
    let s : Session Cluster := .start lone .empty none
    (Session.run Cluster.connector (Shell.execute .empty command) s).1 = exitOk ∧
      command.Installs .empty ((Shell.execute .empty command).turns Cluster.world s)
        s.cluster.groups
        (Session.run Cluster.connector (Shell.execute .empty command) s).2.cluster.groups := by
  intro command s
  have hreached : Cluster.Reached [.bootstrap] s.cluster :=
    Cluster.Reached.empty.addGroup (.of .bootstrap _) none
  have hcode : (Session.run Cluster.connector (Shell.execute .empty command) s).1 = exitOk := by
    decide +kernel
  exact ⟨hcode, ((execute_leaves hreached rfl .empty).1 command).2 hcode⟩

end RaftAdmin
