import RaftAdmin.Proofs.Cluster.Change
import RaftAdmin.Proofs.Command.Cut
import RaftAdmin.Proofs.Resolution.Adoption
import RaftAdmin.Proofs.Shells.Sharing

/-!
# Members that two shells add

A command that adds peers is told the members of its group, and later submits these members and its
own peers as a whole. The cluster takes what is submitted, whatever has become of the group in
between. So when two shells add peers to one group, what is accepted last decides.

## What is proved

* `added_of_path` — a command that adds peers and succeeds is told members and submits them once,
  with its own peers, whoever replies.
* `exists_last_of_said` — of two changes one comes last, and everybody else only asks.
* **`additions_remain`** — in any interleaving of two such commands that both succeed, the group
  finally has the peers that are asked for by the one that submits last, and those that the other
  asks for too if the last one is told the members only after the other has submitted.
* **`exists_lost_addition`** — else the peers of the other can be lost, and both succeed.
-/

namespace RaftAdmin

open Script (Path)

variable {conf : Configuration} {request : GroupRequest} {values : List String} {xs : List Turn}
  {id : GroupId} {peer : PeerId} {a : PeerAddress}

/-! ### A command that adds peers -/

/-- The addresses that values ask to add, if they can be read. -/
def additions (values : List String) : List PeerAddress :=
  (readAddresses .addPeer values).toOption.getD []

/-- In this conversation the members of a group are told to a command, which adds peers to them and
submits them all; they are accepted, and no other change is asked for. -/
structure Adding (values : List String) (xs us : List Turn) (r : ResolvedGroup)
    (reply : ClientReply) (vs : List Turn) : Prop where
  /-- The members are submitted with the peers. -/
  split : xs = us ++ ⟨.setConfiguration r.contactGroup (addPeers r.group.peers (additions values)),
    .ok reply⟩ :: vs
  /-- They are accepted. -/
  accepted : reply.success = true
  /-- Before that the command only asks. -/
  before : ∀ u ∈ us, u.action.Asks
  /-- After that it only asks. -/
  after : ∀ v ∈ vs, v.action.Asks
  /-- The members were told before. -/
  adopted : ∃ candidates, Resolution.Adopted candidates us r

theorem added_of_path (h : Path (Shell.execute conf ⟨.quorumAdd values, request⟩) xs exitOk) :
    ∃ us r reply vs, Adding values xs us r reply vs := by
  have hstops := stops_of_course (course_of_path h)
  have haccepts := (exitOk_iff_accepts h (fun x hx hx' => hstops.fails ⟨x, hx, hx'⟩ rfl)
    trivial).mp rfl
  cases amends_of_path h with
  | nothing hasks =>
    obtain ⟨x, hx, hxaccepts⟩ := haccepts
    exact (hxaccepts.not_asks (hasks x hx)).elim
  | leader r peers accepted target timeout reply htask =>
    obtain ⟨_, helect⟩ := htask
    cases helect
  | @members us vs errand r peers reply htask hreaches hpeers hus hvs =>
    have hx := (exists_change_iff (fun _ => Turn.Accepts.not_asks) hus hvs).mp haccepts
    obtain ⟨said, talk, ⟨ts, ys, herrand, hresolve, hsplit⟩, -⟩ := hreaches
    obtain ⟨addresses, hread, rfl⟩ := exists_read_of_path herrand
    obtain rfl : addPeers r.group.peers addresses = peers := Option.some.inj hpeers
    have hadditions : additions values = addresses := by rw [additions, hread]; rfl
    obtain ⟨candidates, hadopted⟩ := Resolution.adopted_of_path hresolve
    cases reply with
    | error failure => exact hx.elim
    | ok reply =>
      refine ⟨us, r, reply, vs, by rw [hadditions], hx, hus, hvs, candidates, hadopted.mono ?_⟩
      rw [hsplit]
      exact fun y hy => List.mem_cons_of_mem _
        (List.mem_append_right _ (List.mem_append_left _ hy))

/-! ### What the cluster makes of it -/

namespace Cluster

variable {c c' : Cluster} {group : Group} {peers : List Peer} {reply : ClientReply}

/-- Members that are accepted are still the members of the group while everybody only asks, and are
told to those who do. -/
theorem Served.group?_of_accepted
    (h : Served c (⟨.setConfiguration group peers, .ok reply⟩ :: xs) c')
    (haccepted : reply.success = true) (hxs : ∀ x ∈ xs, x.action.Asks) :
    ∃ between : Cluster, between.group? group.id = some (.of group.id peers) ∧
      (∀ x ∈ xs, between.Truthful x) ∧ c'.group? group.id = some (.of group.id peers) := by
  obtain ⟨s, rfl, hreply, hrest⟩ := served_cons_iff.mp h
  have hgroup := Cluster.group?_of_accepted hreply.symm haccepted
  obtain ⟨htruthful, hgroups, -⟩ := hrest.alike hxs ⟨rfl, rfl⟩
  refine ⟨_, hgroup, htruthful, ?_⟩
  rwa [group?, state?, hgroups]

/-- Of two submissions that are accepted while everybody else only asks, the members of the first
are told until the last, and those of the last remain. -/
theorem Served.group?_of_both {ys zs : List Turn} {first last : Group} {ps qs : List Peer}
    {reply reply' : ClientReply}
    (h : Served c (xs ++ ⟨.setConfiguration first ps, .ok reply⟩ ::
      (ys ++ ⟨.setConfiguration last qs, .ok reply'⟩ :: zs)) c')
    (hfirst : reply.success = true) (hlast : reply'.success = true)
    (hys : ∀ y ∈ ys, y.action.Asks) (hzs : ∀ z ∈ zs, z.action.Asks) :
    ∃ between : Cluster, between.group? first.id = some (.of first.id ps) ∧
      (∀ y ∈ ys, between.Truthful y) ∧ c'.group? last.id = some (.of last.id qs) := by
  obtain ⟨c₁, -, hrest⟩ := served_append_iff.mp h
  rw [← List.cons_append] at hrest
  obtain ⟨c₂, hserved, hserved'⟩ := served_append_iff.mp hrest
  obtain ⟨between, hgroup, htruthful, -⟩ := hserved.group?_of_accepted hfirst hys
  obtain ⟨-, -, -, hended⟩ := hserved'.group?_of_accepted hlast hzs
  exact ⟨between, hgroup, htruthful, hended⟩

theorem hasMember_of_group? {g : Group} {addresses : List PeerAddress}
    (h : c.group? id = some (.of id (addPeers g.peers addresses)))
    (hpeer : peer ∈ g.peers.map Peer.id ∨ peer ∈ addresses.map PeerId.ofAddress) :
    c.hasMember id peer = true := by
  rw [hasMember, h, Option.any_some, Group.contains_iff,
    Group.peers_of (distinct_addPeers g.distinct addresses)]
  exact mem_map_id_addPeers.mpr hpeer

end Cluster

/-! ### Two changes in one conversation -/

/-- Whether an action asks for a change. -/
def Action.changes (action : Action) : Bool := action.configures || action.transfers

theorem Action.changes_eq_false_iff {action : Action} : action.changes = false ↔ action.Asks := by
  cases action <;> simp [changes, configures, transfers, Asks]

namespace Shared

variable {ι : Type} [DecidableEq ι] {zs : List (Bool × Turn)} {x : Bool → Turn}

theorem said_filter (p : Turn → Bool) (i : ι) (zs : List (ι × Turn)) :
    said i (zs.filter fun z => p z.2) = (said i zs).filter p := by
  induction zs with
  | nil => rfl
  | cons z zs ih =>
    obtain ⟨j, y⟩ := z
    by_cases hj : j = i
    · subst hj
      cases hy : p y <;> simp [said_cons_self, hy, ih]
    · cases hy : p y <;> simp [said_cons_of_ne hj, hy, ih]

theorem eq_nil_of_said {zs : List (ι × Turn)} (h : ∀ i, said i zs = []) : zs = [] := by
  cases zs with
  | nil => rfl
  | cons z zs =>
    obtain ⟨i, y⟩ := z
    have hi := h i
    rw [said_cons_self] at hi
    cases hi

/-- If each of two shells has said one thing, one of them has said it last. -/
theorem eq_pair_of_said (h : ∀ b, said b zs = [x b]) :
    ∃ last, zs = [(!last, x !last), (last, x last)] := by
  cases zs with
  | nil => cases h true
  | cons z zs =>
    obtain ⟨first, y⟩ := z
    have hfirst := h first
    have hsecond := h !first
    rw [said_cons_self] at hfirst
    rw [said_cons_of_ne (by simp)] at hsecond
    obtain ⟨rfl, hnone⟩ := List.cons.inj hfirst
    cases zs with
    | nil => cases hsecond
    | cons z zs =>
      obtain ⟨second, y⟩ := z
      obtain rfl : second = !first := Bool.eq_not.mpr fun hsame => by
        rw [hsame, said_cons_self] at hnone
        cases hnone
      rw [said_cons_self] at hsecond
      rw [said_cons_of_ne (by simp)] at hnone
      obtain ⟨rfl, hrest⟩ := List.cons.inj hsecond
      obtain rfl : zs = [] := eq_nil_of_said fun b => by
        cases b <;> cases first <;> assumption
      exact ⟨!first, by simp⟩

/-- Of two changes, one by each of two shells, one comes last, and before and after them and in
between everybody only asks. -/
theorem exists_last_of_said (h : ∀ b, (said b zs).filter (·.action.changes) = [x b]) :
    ∃ last us vs ws, zs = us ++ (!last, x !last) :: (vs ++ (last, x last) :: ws) ∧
      (∀ u ∈ us, u.2.action.Asks) ∧ (∀ v ∈ vs, v.2.action.Asks) ∧ ∀ w ∈ ws, w.2.action.Asks := by
  have hchanges : ∀ b, said b (zs.filter fun z => z.2.action.changes) = [x b] := by
    intro b
    rw [said_filter fun y => y.action.changes]
    exact h b
  obtain ⟨last, hpair⟩ := eq_pair_of_said hchanges
  obtain ⟨us, rest, rfl, hus, -, hrest⟩ := List.filter_eq_cons_iff.mp hpair
  obtain ⟨vs, ws, rfl, hvs, -, hws⟩ := List.filter_eq_cons_iff.mp hrest
  refine ⟨last, us, vs, ws, rfl, ?_, ?_, ?_⟩
  · exact fun u hu => Action.changes_eq_false_iff.mp (by simpa using hus u hu)
  · exact fun v hv => Action.changes_eq_false_iff.mp (by simpa using hvs v hv)
  · have hnone := List.filter_eq_nil_iff.mp hws
    exact fun w hw => Action.changes_eq_false_iff.mp (by simpa using hnone w hw)

end Shared

/-! ### Two shells that add peers -/

open Shared (said)

theorem Adding.filter_changes {us vs : List Turn} {r : ResolvedGroup} {reply : ClientReply}
    (h : Adding values xs us r reply vs) :
    xs.filter (·.action.changes) =
      [⟨.setConfiguration r.contactGroup (addPeers r.group.peers (additions values)),
        .ok reply⟩] := by
  have hnone : ∀ {zs : List Turn}, (∀ z ∈ zs, z.action.Asks) →
      zs.filter (·.action.changes) = [] := fun hzs => List.filter_eq_nil_iff.mpr fun z hz => by
    simp [Action.changes_eq_false_iff.mpr (hzs z hz)]
  rw [h.split, List.filter_append, hnone h.before, List.filter_cons_of_pos rfl, hnone h.after]
  rfl

/-- If a shell submits after the other, then all that it has said before, it has said before the
other's submission or between the two. -/
theorem Adding.said_eq {last : Bool} {before between after : List (Bool × Turn)} {x y : Turn}
    {us vs : List Turn} {r : ResolvedGroup} {reply : ClientReply}
    (h : Adding values (said last (before ++ (!last, x) :: (between ++ (last, y) :: after)))
      us r reply vs) (hy : y.action.changes = true) :
    said last before ++ said last between = us := by
  have hsaid := h.split
  rw [Shared.said_append, Shared.said_cons_of_ne (by simp), Shared.said_append,
    Shared.said_cons_self, ← List.append_assoc] at hsaid
  exact (split_unique (P := (·.action.changes))
    (fun u hu => Action.changes_eq_false_iff.mpr (h.before u hu))
    (fun v hv => Action.changes_eq_false_iff.mpr (h.after v hv)) hy hsaid.symm).1

/-- Whether an action submits members for no other group. -/
def Action.configuresOnly (id : GroupId) : Action → Bool
  | .setConfiguration group _ => group.id = id
  | _ => true

/-- Each of two shells is about to run a command that adds peers. -/
def Shared.Adds (w : Shared Bool) (values : Bool → List String) : Prop :=
  ∀ b, ∃ conf request, (w.worker b).rest = Shell.execute conf ⟨.quorumAdd (values b), request⟩

/-- **What two shells add.** Two shells add peers to one group of a cluster, in any interleaving,
and both succeed. Then each submits members once, and one of them last; nothing else is asked for.
The group finally has all peers that the command of the last one asks for, and those that the other
command asks for too if the last one is told nothing about the group before the submission of the
other. -/
theorem additions_remain {w : Shared Bool} {values : Bool → List String} (hadds : w.Adds values)
    {schedule : List Bool} {id : GroupId}
    (hcode : ∀ b, (w.run schedule).2.code? b = some exitOk)
    (hid : ∀ z ∈ (w.run schedule).1, z.2.action.configuresOnly id = true) :
    let ended := w.run schedule
    ∃ last us x vs y ws, ended.1 = us ++ (!last, x) :: (vs ++ (last, y) :: ws) ∧
      x.Accepts ∧ y.Accepts ∧ (∀ z ∈ us ++ (vs ++ ws), z.2.action.Asks) ∧
      (∀ a ∈ additions (values last), ended.2.cluster.hasMember id (.ofAddress a) = true) ∧
      ((∀ group p info, (last, ⟨.groupInfo group p id, .ok info⟩) ∈ us →
          info.reply.success = false) →
        ∀ a ∈ additions (values !last), ended.2.cluster.hasMember id (.ofAddress a) = true) := by
  intro ended
  -- each shell has said what a command that adds peers can say
  have hadded : ∀ b, ∃ us r reply vs, Adding (values b) (said b ended.1) us r reply vs := by
    intro b
    obtain ⟨conf, request, hrest⟩ := hadds b
    exact added_of_path (hrest ▸ Shared.path_of_code (hcode b))
  choose us r reply vs hadding using hadded
  obtain ⟨last, before, between, after, hsplit, hbefore, hbetween, hafter⟩ :=
    Shared.exists_last_of_said fun b => (hadding b).filter_changes
  have hgroup : ∀ b, (r b).contactGroup.id = id := fun b => by
    refine of_decide_eq_true (hid (b, ⟨.setConfiguration (r b).contactGroup
      (addPeers (r b).group.peers (additions (values b))), .ok (reply b)⟩) ?_)
    rw [← Shared.mem_said, (hadding b).split]
    exact List.mem_append_cons_self
  -- the cluster serves both submissions
  have hserved := Shared.served_run w schedule
  rw [hsplit, List.map_append, List.map_cons, List.map_append, List.map_cons] at hserved
  obtain ⟨middle, hmiddle, htruthful, hended⟩ := hserved.group?_of_both (hadding !last).accepted
    (hadding last).accepted (List.forall_mem_map.mpr hbetween) (List.forall_mem_map.mpr hafter)
  rw [hgroup] at hmiddle hended
  have hasks : ∀ z ∈ before ++ (between ++ after), z.2.action.Asks :=
    List.forall_mem_append.mpr ⟨hbefore, List.forall_mem_append.mpr ⟨hbetween, hafter⟩⟩
  refine ⟨last, before, _, between, _, after, hsplit, (hadding !last).accepted,
    (hadding last).accepted, hasks, fun a ha => ?_, fun hsilent a ha => ?_⟩
  · exact Cluster.hasMember_of_group? hended (.inr (List.mem_map_of_mem ha))
  · obtain ⟨candidates, hadopted⟩ := (hadding last).adopted
    obtain ⟨p, -, hturn⟩ := hadopted.asked
    have hid' : (r last).group.id = id := hgroup last
    have hsaid := hadding last
    rw [hsplit] at hsaid
    rw [hid', ← hsaid.said_eq rfl, List.mem_append, Shared.mem_said, Shared.mem_said] at hturn
    rcases hturn with hturn | hturn
    · exact absurd hadopted.success (by simp [hsilent _ _ _ hturn])
    · have htold := Cluster.group?_of_truthful (htruthful _ (List.mem_map_of_mem hturn))
        hadopted.success
      have hpeers : (r last).group.peers
          = addPeers (r !last).group.peers (additions (values !last)) := by
        rw [hadopted.peers, Option.some.inj (htold.symm.trans hmiddle),
          Group.peers_of (distinct_addPeers (r !last).group.distinct _)]
      refine Cluster.hasMember_of_group? hended (.inl ?_)
      rw [hpeers]
      exact mem_map_id_addPeers.mpr (.inr (List.mem_map_of_mem ha))

/-- Two shells that each add a peer to the same group. -/
def rivals : Shared Bool where
  cluster := lone
  worker b := ⟨Shell.execute .empty ⟨.quorumAdd [if b then "h3:9870" else "h2:9870"],
    ⟨some "h1:9870", none, none⟩⟩, .start () .empty none⟩

theorem adds_rivals : rivals.Adds fun b => [if b then "h3:9870" else "h2:9870"] :=
  fun _ => ⟨.empty, ⟨some "h1:9870", none, none⟩, rfl⟩

/-- One works after the other. -/
def inTurn : List Bool := List.replicate 13 false ++ List.replicate 13 true

/-- The peer of the one that submits last remains. -/
theorem additions_remain_rivals :
    (∀ b, (rivals.run inTurn).2.code? b = some exitOk) ∧
      ∃ last : Bool, (rivals.run inTurn).2.cluster.hasMember .bootstrap
        (.ofAddress ⟨if last then "h3" else "h2", 9870⟩) = true := by
  have hcode : ∀ b, (rivals.run inTurn).2.code? b = some exitOk := by decide +kernel
  have hid : ∀ z ∈ (rivals.run inTurn).1, z.2.action.configuresOnly .bootstrap = true := by
    decide +kernel
  obtain ⟨last, us, x, vs, y, ws, -, -, -, -, hlast, -⟩ := additions_remain adds_rivals hcode hid
  refine ⟨hcode, last, ?_⟩
  cases last with
  | false => exact hlast ⟨"h2", 9870⟩ (by decide)
  | true => exact hlast ⟨"h3", 9870⟩ (by decide)

/-- One is told the members, and then the other does all its work before they are submitted. -/
def overtaken : List Bool :=
  List.replicate 10 false ++ List.replicate 13 true ++ List.replicate 3 false

/-- **A lost addition.** Both shells succeed, and the peer that one of them has added is not a
member. -/
theorem exists_lost_addition :
    ∃ schedule, (∀ b, (rivals.run schedule).2.code? b = some exitOk) ∧
      (rivals.run schedule).2.cluster.hasMember .bootstrap (.ofAddress ⟨"h3", 9870⟩) = false :=
  ⟨overtaken, by decide +kernel, by decide +kernel⟩

end RaftAdmin
