import RaftAdmin.Proofs.Command.Change

/-!
# One change after another

Commands for members can be given one after the other to the same group. A later one resolves the
group anew and finds it as the earlier one has left it, so that two commands of one kind do what one
does that is given the values of both, and peers that were added can be removed again.

## The model

The commands name the same peers to ask and the same group id. What is configured then plays no
part, and may have changed in between. Of several groups under one id only the first is ever
changed.

## What is proved

* `located_again` — a group that was found is found again, if no member has left it.
* `exists_of_executes` — two commands that succeed change the same group, one after the other.
* **`execute_append`** — to change members twice is to change them once by all values.
* **`execute_undo`** — removing the peers that were just added restores the group.
-/

namespace RaftAdmin

variable {conf conf' : Configuration} {option : ListOption} {as bs values : List String}
  {list raw : String} {service? : Option String} {c c' : Cluster}

/-! ### Finding the group again -/

/-- With peers and a group id, nothing is looked up in the configuration. -/
theorem plan_explicit (conf : Configuration) (list raw : String) (service? : Option String) :
    Resolution.plan conf ⟨some list, some raw, service?⟩ = (do
      let addresses ← GroupRequest.addressesOf list
      let seed ← (GroupRequest.seed ⟨none, some raw, none⟩ .empty).1
      Resolution.seeded seed addresses) := by
  have haddresses : GroupRequest.addresses ⟨some list, some raw, service?⟩ conf
      = (GroupRequest.addressesOf list, conf) := rfl
  have hseed : (GroupRequest.seed ⟨some list, some raw, service?⟩ conf).1
      = (GroupRequest.seed ⟨none, some raw, none⟩ .empty).1 := by
    cases hraw : GroupId.ofString raw <;> simp [GroupRequest.seed, hraw]
  rw [Resolution.plan, haddresses, hseed]

theorem seed_of_plan {seed : Seed} {candidates : Group}
    (h : Resolution.plan conf ⟨some list, some raw, service?⟩ = .ok (seed, candidates)) :
    ∃ id, GroupId.ofString raw = .ok id ∧ seed = .explicit id := by
  rw [plan_explicit] at h
  cases hlist : GroupRequest.addressesOf list with
  | error e => simp [hlist, bind, Except.bind] at h
  | ok addresses =>
    cases hraw : GroupId.ofString raw with
    | error e => simp [hlist, hraw, GroupRequest.seed, bind, Except.bind] at h
    | ok id =>
      simp only [hlist, hraw, GroupRequest.seed, bind, Except.bind, Resolution.seeded] at h
      split at h
      · cases h
      · exact ⟨id, rfl, (Prod.mk.inj (Except.ok.inj h)).1.symm⟩

/-- A group that was found is found again, with any configuration and in any cluster in which the
same peers can be reached and no member has left. -/
theorem located_again {r : ResolvedGroup}
    (h : c.located conf ⟨some list, some raw, service?⟩ = .ok r) :
    GroupId.ofString raw = .ok r.group.id ∧
      ∀ (conf' : Configuration) (c' : Cluster), c'.unreachable = c.unreachable →
        (∀ peer, c.hasMember r.group.id peer = true → c'.hasMember r.group.id peer = true) →
        ∃ r', c'.located conf' ⟨some list, some raw, service?⟩ = .ok r' ∧
          c'.group? r.group.id = some r'.group := by
  unfold Cluster.located at h
  cases hplan : Resolution.plan conf ⟨some list, some raw, service?⟩ with
  | error e => simp [hplan, Except.bind] at h
  | ok planned =>
    obtain ⟨seed, candidates⟩ := planned
    replace h : c.resolved seed candidates = .ok r := by rwa [hplan] at h
    obtain ⟨id, hraw, rfl⟩ := seed_of_plan hplan
    have hgroup := (Resolution.resolved_known c candidates (.explicit id) rfl).2.1 r h
    obtain rfl := Cluster.id_of_group? hgroup
    obtain ⟨p, hp, hserves⟩ := Cluster.exists_serves_of_resolved h
    obtain ⟨hreach, hmember⟩ := Bool.and_eq_true_iff.mp hserves
    refine ⟨hraw, fun conf' c' hunreachable hmembers => ?_⟩
    have hreach' : c'.isReachable p.id = true := by
      rwa [Cluster.isReachable, hunreachable]
    obtain ⟨hfound, hgroup', -⟩ :=
      Resolution.resolved_known c' candidates (.explicit r.group.id) rfl
    obtain ⟨r', hr'⟩ := hfound.mpr ⟨p, hp, hreach', hmembers p.id hmember⟩
    refine ⟨r', ?_, hgroup' r' hr'⟩
    rw [Cluster.located, plan_explicit, ← plan_explicit conf, hplan]
    exact hr'

/-! ### Changing the members again -/

theorem map_id_change {f : List Peer → List Peer}
    (hf : ListOption.addressPriority.change values = .ok f) (peers : List Peer) :
    (f peers).map Peer.id = peers.map Peer.id := by
  obtain ⟨_, hread, rfl⟩ := exists_of_map hf
  obtain ⟨pairs, -, rfl⟩ := exists_of_map hread
  simp [Errand.change, prioritize_id]

/-- A member that is left after two changes of one kind was left after the first. -/
theorem mem_of_changes {f g : List Peer → List Peer} (hf : option.change as = .ok f)
    (hg : option.change bs = .ok g) {peers : List Peer} {id : PeerId}
    (hid : id ∈ peers.map Peer.id) (hlast : id ∈ (g (f peers)).map Peer.id) :
    id ∈ (f peers).map Peer.id := by
  cases option with
  | addPeer =>
    obtain ⟨_, hread, rfl⟩ := exists_of_map hf
    obtain ⟨addresses, -, rfl⟩ := exists_of_map hread
    exact mem_map_id_addPeers.mpr (.inl hid)
  | removePeer =>
    obtain ⟨_, hread, rfl⟩ := exists_of_map hg
    obtain ⟨addresses, -, rfl⟩ := exists_of_map hread
    exact List.map_subset _ (List.filter_subset_self _) hlast
  | addressPriority => rwa [map_id_change hf]

theorem distinct_change {f : List Peer → List Peer} (hf : option.change values = .ok f)
    (g : Group) : (f g.peers).Pairwise fun p q => p.id ≠ q.id := by
  obtain ⟨errand, herrand, rfl⟩ := exists_of_map hf
  exact Errand.distinct_members (Errand.members?_eq (changesMembers_of_errand herrand) g)

/-! ### Changing a group again -/

namespace Cluster

variable {id : GroupId} {f f' : GroupState → GroupState}

/-- To change a group twice is to change it once, by both changes. -/
theorem update_update (h : c'.groups = (c.update id f).groups)
    (hf : ∀ g, g.group.id = id → (f g).group.id = id) :
    (c'.update id f').groups = (c.update id fun g => f' (f g)).groups := by
  simp only [update, h]
  generalize c.groups = gs
  induction gs with
  | nil => rfl
  | cons g gs ih =>
    by_cases hg : g.group.id = id
    · simp [updateFirst, hg, hf g hg]
    · simp [updateFirst, hg, ih]

/-- Two changes of a group differ in what they make of it, and in nothing else. -/
theorem map_update_congr {β : Type} {v : GroupState → β}
    (h : ∀ g, c.state? id = some g → v (f g) = v (f' g)) :
    (c.update id f).groups.map v = (c.update id f').groups.map v := by
  simp only [state?] at h
  simp only [update]
  generalize c.groups = gs at h ⊢
  induction gs with
  | nil => rfl
  | cons g gs ih =>
    by_cases hg : g.group.id = id
    · have hv := h g (List.find?_cons_of_pos (by simpa using hg))
      simp [updateFirst, hg, hv]
    · have hrest := ih fun g' hg' => h g' (by rwa [List.find?_cons_of_neg (by simpa using hg)])
      simp [updateFirst, hg, hrest]

theorem update_congr (h : ∀ g, c.state? id = some g → f g = f' g) :
    (c.update id f).groups = (c.update id f').groups := by
  simpa using map_update_congr (v := fun g => g) h

end Cluster

/-- What is known about a group, but for how far it has committed. -/
def GroupState.membership (g : GroupState) : Group × Option PeerId := (g.group, g.leader?)

/-- A group that is changed twice is as if it was changed to the last members at once, unless a leader
that is among these was lost in between. -/
theorem GroupState.membership_reconfigure {g : GroupState} {id : GroupId} {ps qs : List Peer}
    (h : ∀ leader, g.leader? = some leader → (Group.of id qs).contains leader = true →
      (Group.of id ps).contains leader = true) :
    ((g.reconfigure id ps).reconfigure id qs).membership = (g.reconfigure id qs).membership := by
  have hleader : (g.leader?.filter (Group.of id ps).contains).filter (Group.of id qs).contains
      = g.leader?.filter (Group.of id qs).contains := by
    cases hsome : g.leader? with
    | none => rfl
    | some leader =>
      cases hlast : (Group.of id qs).contains leader with
      | true => simp [Option.filter, h leader hsome hlast]
      | false =>
        rw [Option.filter_filter]
        simp [Option.filter, hlast]
  exact congrArg (Prod.mk _) hleader

theorem Cluster.lookup_of_membership
    (h : c'.groups.map GroupState.membership = c.groups.map GroupState.membership) (id : GroupId) :
    c'.group? id = c.group? id ∧ c'.leader? id = c.leader? id := by
  have hfind : ∀ c : Cluster, (c.state? id).map GroupState.membership
      = (c.groups.map GroupState.membership).find? fun m => m.1.id = id := by
    intro c
    rw [List.find?_map]
    rfl
  have hgroup : ∀ c : Cluster,
      c.group? id = ((c.state? id).map GroupState.membership).map Prod.fst := by
    intro c
    rw [Cluster.group?, Option.map_map]
    rfl
  have hleader : ∀ c : Cluster,
      c.leader? id = ((c.state? id).map GroupState.membership).bind Prod.snd := by
    intro c
    rw [Cluster.leader?, Option.bind_map]
    rfl
  rw [hgroup, hgroup c, hleader, hleader c, hfind, hfind c, h]
  exact ⟨rfl, rfl⟩

/-! ### Two commands -/

/-- The exit code of the command for the values of an option, and the session after it. -/
def ListOption.execute (option : ListOption) (conf : Configuration) (request : GroupRequest)
    (values : List String) (s : Session Cluster) : Int × Session Cluster :=
  Session.run Cluster.connector (Shell.execute conf (option.command values request)) s

variable {s : Session Cluster}

/-- The state that the members of a changed group come from, and the state they are in. -/
theorem exists_of_execute {request : GroupRequest} (hsink : s.sink.limit? = none)
    (hok : (option.execute conf request values s).1 = exitOk) :
    let t := (option.execute conf request values s).2
    ∃ f r g, option.change values = .ok f ∧ s.cluster.located conf request = .ok r ∧
      s.cluster.state? r.group.id = some g ∧ g.group = r.group ∧
      s.cluster.configurationRejection? = none ∧ s.Kept t ∧
      t.cluster.groups
        = (s.cluster.update r.group.id (·.reconfigure r.group.id (f r.group.peers))).groups ∧
      t.cluster.group? r.group.id = some (.of r.group.id (f r.group.peers)) := by
  intro t
  obtain ⟨hcode, hchanged⟩ := execute_change hsink conf request option values
  obtain ⟨⟨f, r, hf, hr⟩, hnone⟩ := hcode.mp hok
  have hgroups : t.cluster.groups
      = (s.cluster.update r.group.id (·.reconfigure r.group.id (f r.group.peers))).groups :=
    hchanged f r hf hr hnone
  obtain ⟨g, hstate, hg⟩ := Option.map_eq_some_iff.mp (Cluster.exists_of_located hr).1
  have hkept : s.Kept t := Session.kept_of_replies (Script.replies_run Cluster.world _ s)
  refine ⟨f, r, g, hf, hr, hstate, hg, hnone, hkept, hgroups, ?_⟩
  have hupdated := Cluster.state?_update
    (f := (·.reconfigure r.group.id (f r.group.peers))) hstate rfl
  rw [Cluster.state?, ← hgroups] at hupdated
  rw [Cluster.group?, Cluster.state?, hupdated]
  rfl

/-- Two commands that succeed one after the other, to the same group, change it one after the
other. -/
theorem exists_of_executes {option' : ListOption} (hsink : s.sink.limit? = none)
    (hfirst : (option.execute conf ⟨some list, some raw, service?⟩ as s).1 = exitOk)
    (hsecond : (option'.execute conf' ⟨some list, some raw, service?⟩ bs
      (option.execute conf ⟨some list, some raw, service?⟩ as s).2).1 = exitOk) :
    ∃ f g r state, option.change as = .ok f ∧ option'.change bs = .ok g ∧
      s.cluster.located conf ⟨some list, some raw, service?⟩ = .ok r ∧
      s.cluster.state? r.group.id = some state ∧ state.group = r.group ∧
      s.cluster.configurationRejection? = none ∧
      (option'.execute conf' ⟨some list, some raw, service?⟩ bs
        (option.execute conf ⟨some list, some raw, service?⟩ as s).2).2.cluster.groups
        = (s.cluster.update r.group.id fun g' => (g'.reconfigure r.group.id
          (f r.group.peers)).reconfigure r.group.id (g (f r.group.peers))).groups := by
  obtain ⟨f, r, state, hf, hr, hstate, hsame, hnone, hkept, hgroups, hgroup⟩ :=
    exists_of_execute hsink hfirst
  obtain ⟨g, r', _, hg, hr', -, -, -, -, hgroups', -⟩ :=
    exists_of_execute (hkept.limit.trans hsink) hsecond
  -- the second command finds the group as the first has left it
  have hid : r'.group.id = r.group.id :=
    Except.ok.inj ((located_again hr').1.symm.trans (located_again hr).1)
  have hfound := (Cluster.exists_of_located hr').1
  rw [hid, hgroup] at hfound
  have hpeers : r'.group.peers = f r.group.peers := by
    rw [← Option.some.inj hfound, Group.peers_of (distinct_change hf r.group)]
  rw [hid, hpeers] at hgroups'
  refine ⟨f, g, r, state, hf, hg, hr, hstate, hsame, hnone, hgroups'.trans ?_⟩
  exact Cluster.update_update hgroups fun _ _ => rfl

/-- **To change members twice is to change them once.** Over a reached cluster, and with a stream
that never breaks, let two commands of one kind be given one after the other to the same group, with
the same peers to ask and the same group id. If both succeed, then one that is given the values of
both succeeds too, and leaves the same members in the same order, with the same priorities and the
same leader, in this group and in every other. -/
theorem execute_append {ids : List GroupId} (hreached : Cluster.Reached ids s.cluster)
    (hsink : s.sink.limit? = none) (option : ListOption) (list raw : String)
    (service? : Option String) (as bs : List String) (conf conf' conf'' : Configuration) :
    let request : GroupRequest := ⟨some list, some raw, service?⟩
    let first := option.execute conf request as s
    let second := option.execute conf' request bs first.2
    let once := option.execute conf'' request (as ++ bs) s
    first.1 = exitOk → second.1 = exitOk →
      once.1 = exitOk ∧ ∀ id, once.2.cluster.group? id = second.2.cluster.group? id ∧
        once.2.cluster.leader? id = second.2.cluster.leader? id := by
  intro request first second once hfirst hsecond
  obtain ⟨f, g, r, state, hf, hg, hr, hstate, hsame, hnone, hgroups⟩ :=
    exists_of_executes hsink hfirst hsecond
  have hboth : option.change (as ++ bs) = .ok (g ∘ f) := ListOption.change_append hf hg
  obtain ⟨r', hr', hgroup'⟩ := (located_again hr).2 conf'' s.cluster rfl fun _ h => h
  have hsame' : r'.group = r.group :=
    Option.some.inj (hgroup'.symm.trans (Cluster.exists_of_located hr).1)
  obtain ⟨honce, hchanged⟩ := execute_change hsink conf'' request option (as ++ bs)
  have hgroups' : once.2.cluster.groups = _ := hchanged _ _ hboth hr' hnone
  refine ⟨honce.mpr ⟨⟨_, _, hboth, hr'⟩, hnone⟩, Cluster.lookup_of_membership ?_⟩
  rw [hgroups, hgroups', hsame']
  refine Cluster.map_update_congr fun state' hstate' => ?_
  obtain rfl := Option.some.inj (hstate.symm.trans hstate')
  refine (GroupState.membership_reconfigure fun leader hleader hlast => ?_).symm
  have hled := hreached.led state (List.mem_of_find?_eq_some hstate) leader hleader
  rw [Group.contains_iff, Group.peers_of (distinct_change hboth r.group)] at hlast
  rw [Group.contains_iff, hsame] at hled
  rw [Group.contains_iff, Group.peers_of (distinct_change hf r.group)]
  exact mem_of_changes hf hg hled hlast

/-- A request for the group of one member by its id. -/
def loneById : GroupRequest := ⟨some "h1:9870", some "00000001-0001-0001-0001-000000000001", none⟩

theorem reached_lone : Cluster.Reached [.bootstrap] lone :=
  Cluster.Reached.empty.addGroup (.of .bootstrap _) none

/-- A peer that is added twice, the second time with another one, and both at once. -/
theorem execute_append_twice :
    let s : Session Cluster := .start lone .empty none
    let once := ListOption.addPeer.execute .empty loneById ["h2:9870", "h3:9870,h2:9870"] s
    once.1 = exitOk ∧ once.2.cluster.group? .bootstrap
      = some (.of .bootstrap [.ofAddress ⟨"h1", 9870⟩, .ofAddress ⟨"h2", 9870⟩,
          .ofAddress ⟨"h3", 9870⟩]) := by
  have hfirst : (ListOption.addPeer.execute .empty loneById ["h2:9870"]
      (.start lone .empty none)).1 = exitOk := by decide +kernel
  have hsecond : (ListOption.addPeer.execute .empty loneById ["h3:9870,h2:9870"]
      (ListOption.addPeer.execute .empty loneById ["h2:9870"]
        (.start lone .empty none)).2).1 = exitOk := by decide +kernel
  have honce := execute_append (s := .start lone .empty none) reached_lone rfl .addPeer _ _ none
    ["h2:9870"] ["h3:9870,h2:9870"] .empty .empty .empty hfirst hsecond
  exact ⟨honce.1, (honce.2 .bootstrap).1.trans (by decide +kernel)⟩

/-! ### Undoing a change -/

/-- Values that add peers remove the same peers. -/
theorem exists_of_change_addPeer {f : List Peer → List Peer}
    (h : ListOption.addPeer.change values = .ok f) :
    ∃ addresses, readAddresses .addPeer values = .ok addresses ∧
      f = (addPeers · addresses) ∧
      ListOption.removePeer.change values = .ok (removePeers · addresses) := by
  obtain ⟨_, hmap, rfl⟩ := exists_of_map h
  obtain ⟨addresses, hread, rfl⟩ := exists_of_map hmap
  have hread' : readAddresses .removePeer values = .ok addresses :=
    readParts_eq_ok_iff.mpr (readParts_eq_ok_iff.mp hread)
  refine ⟨addresses, hread, rfl, ?_⟩
  rw [ListOption.change, ListOption.errand, hread']
  rfl

/-- Peers that were added are removed with those that are removed anyway. -/
theorem removePeers_addPeers {peers : List Peer} {added addresses : List PeerAddress}
    (h : added ⊆ addresses) :
    removePeers (addPeers peers added) addresses = removePeers peers addresses := by
  unfold addPeers
  induction added generalizing peers with
  | nil => rfl
  | cons a added ih =>
    obtain ⟨ha, hadded⟩ := List.cons_subset.mp h
    rw [List.foldl_cons, ih hadded, addPeer]
    split
    · rfl
    · have hid : (Peer.ofAddress a).id ∈ addresses.map PeerId.ofAddress := List.mem_map_of_mem ha
      have hgone : [Peer.ofAddress a].filter (fun p => p.id ∉ addresses.map PeerId.ofAddress) = [] :=
        List.filter_eq_nil_iff.mpr (List.forall_mem_singleton.mpr (by simpa using hid))
      rw [removePeers, List.filter_append, hgone, List.append_nil, removePeers]

namespace Group

variable {g : Group} {addresses : List PeerAddress}

/-- Peers of whom none is a member can be added and removed again. -/
theorem removePeers_addPeers_self (h : ∀ a ∈ addresses, g.contains (.ofAddress a) = false) :
    removePeers (addPeers g.peers addresses) addresses = g.peers := by
  rw [removePeers_addPeers (List.Subset.refl _)]
  refine List.filter_eq_self.mpr fun p hp => decide_eq_true fun hid => ?_
  obtain ⟨a, ha, heq⟩ := List.mem_map.mp hid
  have hmember : g.contains (.ofAddress a) = true :=
    Group.contains_iff.mpr (heq ▸ List.mem_map_of_mem hp)
  exact Bool.false_ne_true ((h a ha).symm.trans hmember)

/-- A member is still a member when peers were added. -/
theorem contains_addPeers {peer : PeerId} (h : g.contains peer = true)
    (addresses : List PeerAddress) :
    (Group.of g.id (addPeers g.peers addresses)).contains peer = true := by
  rw [Group.contains_iff] at h ⊢
  rw [Group.peers_of (distinct_addPeers g.distinct addresses)]
  exact mem_map_id_addPeers.mpr (.inl h)

end Group

/-- A group that gets other members and then its old ones again is as it was, but for two more
commits, if its leader was never lost. -/
theorem GroupState.reconfigure_back {g : GroupState} {ps : List Peer} (hled : g.Led)
    (h : ∀ leader, g.group.contains leader = true →
      (Group.of g.group.id ps).contains leader = true) :
    (g.reconfigure g.group.id ps).reconfigure g.group.id g.group.peers
      = { g with commitIndex := g.commitIndex + 2 } := by
  obtain ⟨group, leader?, commitIndex⟩ := g
  have hleader : (leader?.filter (Group.of group.id ps).contains).filter group.contains
      = leader? := by
    cases leader? with
    | none => rfl
    | some leader =>
      have hmember : group.contains leader = true := hled leader rfl
      simp [Option.filter, h leader hmember, hmember]
  have hcommit : commitIndex + 1 + 1 = commitIndex + 2 := UInt64.add_assoc _ _ _
  simp only [GroupState.reconfigure, Group.of_peers, hleader, hcommit]

/-- **What was added can be removed.** Over a reached cluster, and with a stream that never breaks,
let peers be added to a group of which none of them is a member yet. If this succeeds, then removing
them right after it succeeds too, with the same peers to ask and the same group id, and all groups
are as they were, but for two more commits in this one. -/
theorem execute_undo {ids : List GroupId} (hreached : Cluster.Reached ids s.cluster)
    (hsink : s.sink.limit? = none) (list raw : String) (service? : Option String)
    (values : List String) (conf conf' : Configuration) {id : GroupId}
    (hraw : GroupId.ofString raw = .ok id)
    (hnew : ∀ addresses, readAddresses .addPeer values = .ok addresses →
      ∀ a ∈ addresses, s.cluster.hasMember id (.ofAddress a) = false) :
    let request : GroupRequest := ⟨some list, some raw, service?⟩
    let added := ListOption.addPeer.execute conf request values s
    let removed := ListOption.removePeer.execute conf' request values added.2
    added.1 = exitOk →
      removed.1 = exitOk ∧ removed.2.cluster.groups
        = (s.cluster.update id fun g => { g with commitIndex := g.commitIndex + 2 }).groups := by
  intro request added removed hadded
  obtain ⟨f, r, state, hf, hr, hstate, hsame, hnone, hkept, -, hgroup⟩ :=
    exists_of_execute hsink hadded
  obtain ⟨addresses, hread, rfl, hchange⟩ := exists_of_change_addPeer hf
  obtain ⟨hid, hagain⟩ := located_again hr
  obtain rfl := Except.ok.inj (hraw.symm.trans hid)
  have hfound := (Cluster.exists_of_located hr).1
  have hmember : ∀ peer, s.cluster.hasMember r.group.id peer = r.group.contains peer := by
    intro peer
    rw [Cluster.hasMember, hfound, Option.any_some]
  -- the members are still there when the group is resolved again
  obtain ⟨r', hr', -⟩ := hagain conf' added.2.cluster hkept.unreachable fun peer hpeer => by
    rw [Cluster.hasMember, hgroup, Option.any_some]
    exact Group.contains_addPeers (hmember peer ▸ hpeer) addresses
  have hremoved : removed.1 = exitOk :=
    (execute_change (hkept.limit.trans hsink) conf' request .removePeer values).1.mpr
      ⟨⟨_, _, hchange, hr'⟩, hkept.rejection.trans hnone⟩
  obtain ⟨f, g, r₀, -, hf', hg, hr₀, -, -, -, hgroups⟩ := exists_of_executes hsink hadded hremoved
  obtain rfl := Except.ok.inj (hr.symm.trans hr₀)
  obtain rfl := Except.ok.inj (hf.symm.trans hf')
  obtain rfl := Except.ok.inj (hchange.symm.trans hg)
  refine ⟨hremoved, hgroups.trans (Cluster.update_congr fun state' hstate' => ?_)⟩
  obtain rfl := Option.some.inj (hstate.symm.trans hstate')
  have hback : removePeers (addPeers r.group.peers addresses) addresses = r.group.peers :=
    Group.removePeers_addPeers_self fun a ha => hmember _ ▸ hnew addresses hread a ha
  have hled := hreached.led state (List.mem_of_find?_eq_some hstate)
  dsimp only
  rw [hback, ← hsame]
  exact GroupState.reconfigure_back hled fun leader h => Group.contains_addPeers h addresses

/-- A peer that joins the group of one member and leaves it again. -/
theorem execute_undo_lone :
    let s : Session Cluster := .start lone .empty none
    let added := ListOption.addPeer.execute .empty loneById ["h2:9870"] s
    let removed := ListOption.removePeer.execute .empty loneById ["h2:9870"] added.2
    added.1 = exitOk ∧ removed.1 = exitOk ∧ removed.2.cluster.groups
      = (lone.update .bootstrap fun g => { g with commitIndex := g.commitIndex + 2 }).groups := by
  have hraw : GroupId.ofString "00000001-0001-0001-0001-000000000001" = .ok .bootstrap := by
    decide +kernel
  have hread : readAddresses .addPeer ["h2:9870"] = .ok [⟨"h2", 9870⟩] := by rfl
  have hadded : (ListOption.addPeer.execute .empty loneById ["h2:9870"]
      (.start lone .empty none)).1 = exitOk := by decide +kernel
  refine ⟨hadded, execute_undo (s := .start lone .empty none) reached_lone rfl _ _ none
    ["h2:9870"] .empty .empty hraw (fun addresses haddresses a ha => ?_) hadded⟩
  obtain rfl := Except.ok.inj (hread.symm.trans haddresses)
  obtain rfl := List.mem_singleton.mp ha
  decide

end RaftAdmin
