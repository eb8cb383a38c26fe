import RaftAdmin.Proofs.Command.Change
import RaftAdmin.Proofs.Command.Cut
import RaftAdmin.Proofs.Command.Info

/-!
# The members after a change

A command that adds or removes peers makes a whole list of members from the group that it has
resolved, submits this list, and shows it. A member that is lost on the way, or that comes with
another priority than it had, would harm a group that is in use.

## The model

`newcomers` are the peers that addresses add to members, and `membersLine` is the line that shows
members. `Command.Forms` says how a command makes the members of a group out of those that it has:
what it submits, whoever replies, and what a cluster has of it afterwards, which is `Formation`.

## What is proved

* `addPeers_eq` — peers are added behind the members, each once, where its address occurs first.
* `submitted_of_resolves` — once its group is resolved, a command for members submits them, unless
  the connection is refused.
* `formation_of_replies` — over a cluster that accepts them, the group then has them, and they are
  shown.
* **`quorum_forms`** — what adding and removing peers makes of the members of a group.
-/

namespace RaftAdmin

open Script (Path Replies)

variable {s t : Session Cluster} {xs zs : List Turn} {conf : Configuration} {command : Command}
  {request : GroupRequest} {option : ListOption} {values : List String} {errand : Errand}
  {r : ResolvedGroup} {code : Int}

/-! ### Adding and removing -/

/-- The peers that addresses add to members: for each address whose derived id no member has, the
peer there with this id and priority zero, once and in order. -/
def newcomers (members : List Peer) (addresses : List PeerAddress) : List Peer :=
  (addresses.eraseDups.filter fun a => PeerId.ofAddress a ∉ members.map Peer.id).map
    fun a => ⟨.ofAddress a, a, 0⟩

theorem newcomers_eq (members : List Peer) (addresses : List PeerAddress) :
    newcomers members addresses
      = (firstById (addresses.map Peer.ofAddress)).filter fun p => p.id ∉ members.map Peer.id := by
  rw [firstById_map_ofAddress, List.filter_map]
  rfl

theorem addPeer_of_mem {members : List Peer} {a : PeerAddress}
    (h : PeerId.ofAddress a ∈ members.map Peer.id) : addPeer members a = members :=
  if_pos (by simpa using h)

theorem addPeer_of_notMem {members : List Peer} {a : PeerAddress}
    (h : PeerId.ofAddress a ∉ members.map Peer.id) :
    addPeer members a = members ++ [.ofAddress a] :=
  if_neg (by simpa using h)

/-- Peers are added behind the members, each once, where its address occurs first. -/
theorem addPeers_eq (members : List Peer) (addresses : List PeerAddress) :
    addPeers members addresses = members ++ newcomers members addresses := by
  rw [newcomers_eq]
  induction addresses generalizing members with
  | nil => exact (List.append_nil _).symm
  | cons a as ih =>
    rw [addPeers, List.foldl_cons, ← addPeers, ih, List.map_cons, firstById]
    by_cases hknown : PeerId.ofAddress a ∈ members.map Peer.id
    · rw [addPeer_of_mem hknown, List.filter_cons_of_neg (by simpa [Peer.ofAddress] using hknown),
        List.filter_filter]
      refine congrArg (members ++ ·) (List.filter_congr fun p _ => ?_)
      rw [Bool.eq_iff_iff]
      simp only [decide_eq_true_eq, Bool.and_eq_true]
      exact ⟨fun h => ⟨h, fun hid => h (hid ▸ hknown)⟩, And.left⟩
    · rw [addPeer_of_notMem hknown,
        List.filter_cons_of_pos (by simpa [Peer.ofAddress] using hknown), List.filter_filter,
        List.append_assoc]
      refine congrArg (members ++ .ofAddress a :: ·) (List.filter_congr fun p _ => ?_)
      simp

/-! ### Submitting -/

/-- The line that shows the members of a group. -/
def membersLine (id : GroupId) (peers : List Peer) : String :=
  "Peers of group " ++ id.text ++ " are now " ++ Text.listing (peers.map Peer.text) ++ "\n"

theorem text_membersLine (id : GroupId) (peers : List Peer) :
    (Turn.line ["Peers of group ", id.text, " are now ", Text.listing (peers.map Peer.text)]
      (.ok ())).text = membersLine id peers := by
  unfold membersLine
  rw [text_line]
  -- with the two texts in sight they would be computed to be compared
  generalize id.text = group
  generalize Text.listing (peers.map Peer.text) = members
  simp [String.append_assoc]

/-- Members are submitted first, and if all goes well then they are shown. -/
theorem shown_of_submitting {peers : List Peer} {context : String}
    {result : Except AdminError Int} (h : Submitting r peers context xs result) :
    ∃ reply vs, xs = ⟨.setConfiguration r.contactGroup peers, reply⟩ :: vs ∧
      (∀ v ∈ vs, v.action.Asks) ∧
      (result = .ok exitOk → (∀ v ∈ vs, ¬ v.Unwritten) ∧
        String.join (vs.map Turn.text) = membersLine r.group.id peers) := by
  cases h with
  | unanswered failure => exact ⟨_, [], rfl, by simp, nofun⟩
  | declined reply written hreply =>
    exact ⟨_, [_], rfl, List.forall_mem_singleton.mpr trivial, nofun⟩
  | accepted reply written hreply =>
    refine ⟨_, [_], rfl, List.forall_mem_singleton.mpr trivial, fun hok => ?_⟩
    cases written with
    | error cause => cases hok
    | ok =>
      refine ⟨List.forall_mem_singleton.mpr id, ?_⟩
      rw [List.map_singleton, text_membersLine, String.join_cons, String.join_nil,
        String.append_empty]

/-- A command that succeeds reports nothing more. -/
theorem eq_nil_of_reporting {result : Except AdminError Int} {tail : List Turn}
    (h : Reporting command result tail code) (hcode : code = exitOk) : tail = [] := by
  cases h with
  | finished code => rfl
  | failed e written => exact absurd hcode e.exitCode_ne

/-- Once its group is resolved, a command for members submits them, unless the connection is
refused. If it succeeds then they are shown, and nothing else. -/
theorem submitted_of_resolves (hchanges : errand.ChangesMembers)
    (h : Path (Shell.execute conf command) xs code)
    (hresolves : command.Resolves conf xs errand r zs) :
    (∃ failure, ⟨.connect r.contactGroup, .error failure⟩ ∈ zs) ∧ (∀ x ∈ xs, x.action.Asks) ∨
    ∃ us reply vs,
      xs = us ++ ⟨.setConfiguration r.contactGroup (errand.change r.group.peers), reply⟩ :: vs ∧
      (∀ u ∈ us, u.action.Inquires) ∧ (∀ v ∈ vs, v.action.Asks) ∧
      (code = exitOk → (∀ v ∈ vs, ¬ v.Unwritten) ∧
        String.join (vs.map Turn.text)
          = membersLine r.group.id (errand.change r.group.peers)) := by
  obtain ⟨ys, result, tail, hdoing, hreporting, rfl⟩ := doing_of_resolves h hresolves
  obtain ⟨-, us, hus, rfl, -⟩ := exists_of_resolves hresolves
  have htail := asks_of_reporting hreporting
  obtain ⟨peers, context, ys, events, hpeers, hconnected, rfl⟩ :=
    submitting_of_doing hdoing hchanges
  obtain rfl := Option.some.inj ((Errand.members?_eq hchanges r.group).symm.trans hpeers)
  have hbefore : ∀ u ∈ us ++ events.map (fun event => (⟨.log event, ()⟩ : Turn)),
      u.action.Inquires :=
    List.forall_mem_append.mpr ⟨hus, by simp [Action.Inquires]⟩
  rcases hconnected with ⟨failure, rfl, rfl⟩ | ⟨ws, hsubmitting, rfl⟩
  · refine .inl ⟨⟨failure, by simp⟩, ?_⟩
    rw [List.append_assoc, ← List.append_assoc us]
    refine List.forall_mem_append.mpr ⟨fun u hu => (hbefore u hu).asks, ?_⟩
    exact List.forall_mem_cons.mpr ⟨trivial, htail⟩
  · obtain ⟨reply, vs, rfl, hvs, hshown⟩ := shown_of_submitting hsubmitting
    refine .inr ⟨us ++ events.map (fun event => ⟨.log event, ()⟩)
      ++ [⟨.connect r.contactGroup, .ok ()⟩], reply,
      vs ++ ⟨.disconnect r.contactGroup, ()⟩ :: tail, by simp, ?_, ?_, fun hcode => ?_⟩
    · exact List.forall_mem_append.mpr ⟨hbefore, List.forall_mem_singleton.mpr trivial⟩
    · exact List.forall_mem_append.mpr ⟨hvs, List.forall_mem_cons.mpr ⟨trivial, htail⟩⟩
    · obtain rfl := eq_nil_of_reporting hreporting hcode
      obtain ⟨hwritten, htext⟩ := hshown ((exitOk_iff_of_reporting hreporting).mp hcode)
      have hdisconnect : Turn.text ⟨.disconnect r.contactGroup, ()⟩ = "" := rfl
      refine ⟨List.forall_mem_append.mpr ⟨hwritten, List.forall_mem_singleton.mpr id⟩, ?_⟩
      simp [htext, hdisconnect]

/-! ### Over a cluster -/

/-- What has become of members that were to be submitted for a group of a cluster, after a
conversation that ended with an exit code. -/
structure Formation (s : Session Cluster) (xs : List Turn) (code : Int) (t : Session Cluster)
    (id : GroupId) (peers : List Peer) : Prop where
  /-- They were submitted, and nothing else was. -/
  submitted : t.cluster.submitted = s.cluster.submitted ++ [(id, peers)]
  /-- They were accepted, unless the cluster rejects all. -/
  accepted : (∃ x ∈ xs, x.Accepts) ↔ s.cluster.configurationRejection? = none
  /-- If they were accepted, then the group has them, and no others, in the same order. -/
  members : (∃ x ∈ xs, x.Accepts) → (t.cluster.group? id).map Group.peers = some peers
  /-- If all went well, then they were shown, and nothing else was. -/
  shown : code = exitOk → t.sink.written = s.sink.written ++ membersLine id peers
  /-- All went well if they were accepted and the stream did not break. -/
  succeeded : (∃ x ∈ xs, x.Accepts) → s.sink.limit? = none → code = exitOk

theorem submitted_configure (c : Cluster) (id : GroupId) (peers : List Peer) :
    (c.configure id peers).state.submitted = c.submitted ++ [(id, peers)] := by
  unfold Cluster.configure
  dsimp only
  split
  · rfl
  · split
    · rfl
    · split <;> rfl

theorem changesMembers_task (option : ListOption) (values : List String) :
    (option.task values).ChangesMembers := by
  cases option <;> trivial

/-- A command for members submits those that its values ask for. -/
theorem formation_of_replies (h : Replies Cluster.world s xs t)
    (hpath : Path (Shell.execute conf (option.command values request)) xs code)
    (herrand : option.errand values = .ok errand)
    (hlocated : s.cluster.located conf request = .ok r) :
    Formation s xs code t r.group.id (errand.change r.group.peers) := by
  obtain ⟨zs, hresolves⟩ := resolves_of_replies h hpath herrand hlocated
  have hchanges := changesMembers_of_errand herrand
  rcases submitted_of_resolves hchanges hpath hresolves with
    ⟨⟨failure, hrefused⟩, hasks⟩ | ⟨us, reply, vs, hxs, hus, hvs, hshown⟩
  · -- a cluster refuses no connection
    obtain ⟨-, us, -, rfl, -⟩ := exists_of_resolves hresolves
    exact absurd ((truthful_of_asks h hasks).1 _ (List.mem_append_right _ hrefused))
      (by simp [Cluster.Truthful])
  have hfinished := fun hlimit => exitOk_iff_accepts hpath (Session.written_of_unlimited h hlimit)
    (changesMembers_task option values)
  have hasked : ∀ u ∈ us, u.action.Asks := fun u hu => (hus u hu).asks
  subst hxs
  obtain ⟨u, hbefore, hrest⟩ := Script.replies_append_iff.mp h
  obtain ⟨hreply, hafter⟩ := Script.replies_cons_iff.mp hrest
  have hfirst := untouched_of_asks hbefore hasked
  have hlast : (u.cluster.configure r.group.id (errand.change r.group.peers)).state.Untouched
    t.cluster := untouched_of_asks hafter hvs
  obtain ⟨⟨answer, hanswer, hsuccess⟩, -⟩ :=
    configure_of_located hbefore hasked hlocated (errand.change r.group.peers)
  obtain rfl : reply = .ok answer := hreply.trans hanswer
  have haccepts := exists_change_iff
    (x := ⟨.setConfiguration r.contactGroup (errand.change r.group.peers), .ok answer⟩)
    (fun _ => Turn.Accepts.not_asks) hasked hvs
  refine ⟨?_, haccepts.trans hsuccess, fun haccepted => ?_, fun hcode => ?_,
    fun haccepted hlimit => (hfinished hlimit).mpr haccepted⟩
  · rw [hlast.submitted, submitted_configure, hfirst.submitted]
  · have hconfigured := Cluster.group?_of_accepted hanswer (haccepts.mp haccepted)
    rw [Cluster.group?, ← hlast.state?] at hconfigured
    have hdistinct := Errand.distinct_members (Errand.members?_eq hchanges r.group)
    exact (congrArg (Option.map Group.peers) hconfigured).trans
      (congrArg some (Group.peers_of hdistinct _))
  · obtain ⟨hwritten, hvstext⟩ := hshown hcode
    have hsubmitting : Turn.text
      ⟨.setConfiguration r.contactGroup (errand.change r.group.peers), .ok answer⟩ = "" := rfl
    rw [Session.written_eq_join h (List.forall_mem_append.mpr
      ⟨fun u hu => (hus u hu).not_unwritten, List.forall_mem_cons.mpr ⟨id, hwritten⟩⟩)]
    simp [join_text_of_inquires hus, hsubmitting, hvstext]

/-! ### Commands -/

/-- A command makes the members of a group out of those that it has. -/
structure Command.Forms (command : Command) (conf : Configuration)
    (change : List Peer → List Peer) : Prop where
  /-- Their ids are distinct. -/
  distinct : ∀ g : Group, (change g.peers).Pairwise fun p q => p.id ≠ q.id
  /-- Whoever replies, they are submitted once the group is resolved, and no other change is asked
  for, unless the connection to the group is refused. -/
  submits : ∀ xs code errand r zs, Path (Shell.execute conf command) xs code →
    command.Resolves conf xs errand r zs →
      (∃ failure, ⟨.connect r.contactGroup, .error failure⟩ ∈ zs) ∧ (∀ x ∈ xs, x.action.Asks) ∨
      ∃ us reply vs,
        xs = us ++ ⟨.setConfiguration r.contactGroup (change r.group.peers), reply⟩ :: vs ∧
        (∀ u ∈ us, u.action.Asks) ∧ ∀ v ∈ vs, v.action.Asks
  /-- Over a cluster in which the request finds a group, they are submitted, and if they are
  accepted then they become the members of the group, and are shown. -/
  settles : ∀ (s : Session Cluster) (r : ResolvedGroup),
    (Session.run Cluster.connector (Resolution.resolve conf command.group).run s).1 = .ok r →
      let p := Shell.execute conf command
      let ended := Session.run Cluster.connector p s
      Formation s (p.turns Cluster.world s) ended.1 ended.2 r.group.id (change r.group.peers)

/-- A command for members makes them as its values say. -/
theorem forms_of_errand (herrand : option.errand values = .ok errand) (conf : Configuration)
    (request : GroupRequest) : (option.command values request).Forms conf errand.change where
  distinct g := Errand.distinct_members (Errand.members?_eq (changesMembers_of_errand herrand) g)
  submits xs code errand' r zs hpath hresolves := by
    have hread : option.errand values = .ok errand' := by
      obtain ⟨us, -, hread, -⟩ := hresolves
      rw [ListOption.command, ListOption.task_errand] at hread
      exact (Script.path_ofExcept_iff.mp hread).2.symm
    obtain rfl := Except.ok.inj (herrand.symm.trans hread)
    refine (submitted_of_resolves (changesMembers_of_errand herrand) hpath hresolves).imp_right ?_
    rintro ⟨us, reply, vs, rfl, hus, hvs, -⟩
    exact ⟨us, reply, vs, rfl, fun u hu => (hus u hu).asks, hvs⟩
  settles s r hresolve := by
    rw [Resolution.resolve_eq] at hresolve
    exact formation_of_replies (Script.replies_run Cluster.world _ s)
      (Script.path_run Cluster.world _ s) herrand hresolve

/-- Whatever is found in a cluster with one group is this group. -/
theorem exists_found_of_isSome {group : Group}
    (h : (Session.run Cluster.connector (Resolution.resolve conf request).run
      (.start (Cluster.empty.addGroup group none) .empty none)).1.toOption.isSome = true) :
    ∃ r, (Session.run Cluster.connector (Resolution.resolve conf request).run
      (.start (Cluster.empty.addGroup group none) .empty none)).1 = .ok r ∧ r.group = group := by
  obtain ⟨r, hr⟩ := exists_ok_of_isSome h
  refine ⟨r, hr, ?_⟩
  rw [Resolution.resolve_eq] at hr
  exact Cluster.eq_of_group?_addGroup (Cluster.exists_of_located hr).1

/-- A group of two with priorities, of which the first has no id that is derived from an address. -/
def ranked : Group :=
  .of .bootstrap [⟨⟨"n1"⟩, ⟨"h1", 9870⟩, 2⟩, ⟨⟨"h2_9870"⟩, ⟨"h2", 9870⟩, 1⟩]

/-- A session over a cluster with this group. -/
def rankedSession : Session Cluster := .start (Cluster.empty.addGroup ranked none) .empty none

/-- A request for this group. -/
def rankedRequest : GroupRequest := ⟨some "h2:9870", none, none⟩

/-- What is found for this request. -/
def rankedFound : Except AdminError ResolvedGroup :=
  (Session.run Cluster.connector (Resolution.resolve .empty rankedRequest).run rankedSession).1

/-- The members of this group after a command for them. -/
def rankedAfter (task : Task) : Option (List Peer) :=
  let p := Shell.execute .empty ⟨task, rankedRequest⟩
  ((Session.run Cluster.connector p rankedSession).2.cluster.group? .bootstrap).map Group.peers

theorem exists_rankedFound : ∃ r, rankedFound = .ok r ∧ r.group = ranked :=
  exists_found_of_isSome (by decide +kernel)

end RaftAdmin
