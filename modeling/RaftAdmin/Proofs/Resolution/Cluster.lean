import RaftAdmin.Proofs.Cluster.Reached
import RaftAdmin.Proofs.Peer.Identity
import RaftAdmin.Proofs.Resolution.Path

/-!
# Resolving a group of a cluster

A cluster answers questions by its groups and by who can be reached, and asking changes neither. So
a resolution comes to what the groups are when it begins.

## The model

`listed` and `informed` are what candidates say about a cluster, found without asking anyone: the
first candidate that has something to say is looked up. `resolved` puts them together.

## What is proved

* `resolve_truthful` — a resolution is answered by the groups of the cluster, and changes none.
* `resolve_eq` — a resolution over a cluster comes to what can be looked up in its groups.
* **`resolve_exact`** — over a reached cluster whose groups have distinct ids, and with a list of
  peers to ask, it finds the group that is asked for exactly if one of these peers can be reached
  and is a member, and, without an id, the only group of the first of them that belongs to one. The
  group that it finds is the group as it is in the cluster.
-/

namespace RaftAdmin

open Script (Path)

/-! ### What a cluster answers -/

namespace Cluster

/-- The same groups, and the same peers that cannot be reached. -/
def Alike (c c' : Cluster) : Prop := c'.groups = c.groups ∧ c'.unreachable = c.unreachable

/-- A turn in which the cluster answers by its groups and by who can be reached. -/
def Truthful (c : Cluster) : Turn → Prop
  | ⟨.connect _, reply⟩ => reply = .ok ()
  | ⟨.listGroups _ p, reply⟩ =>
    reply = if c.isReachable p.id then .ok (c.groupsOf p.id) else .error (refused p.id)
  | ⟨.groupInfo _ p id, reply⟩ =>
    reply = if c.isReachable p.id then .ok (c.infoFrom p.id id) else .error (refused p.id)
  | _ => True

/-- Asking is answered truthfully, and changes no group. -/
theorem truthful_answer {c : Cluster} (action : Action) (s : Session Cluster) (hasks : action.Asks)
    (hs : c.Alike s.cluster) :
    c.Truthful ⟨action, (Session.answer connector action s).1⟩ ∧
      c.Alike (Session.answer connector action s).2.cluster := by
  obtain ⟨hgroups, hunreachable⟩ := hs
  cases action with
  | connect group => exact ⟨rfl, hgroups, hunreachable⟩
  | listGroups group p =>
    refine ⟨?_, hgroups, hunreachable⟩
    simp [Truthful, Session.answer, Session.absorb, connector, isReachable, groupsOf, hgroups,
      hunreachable]
  | groupInfo group p id =>
    refine ⟨?_, hgroups, hunreachable⟩
    simp [Truthful, Session.answer, Session.absorb, connector, isReachable, infoFrom, state?,
      hgroups, hunreachable]
  | setConfiguration group peers => exact hasks.elim
  | transferLeadership group target timeout => exact hasks.elim
  | disconnect group => exact ⟨trivial, hgroups, hunreachable⟩
  | print fragments => exact ⟨trivial, hgroups, hunreachable⟩
  | sleep ms => exact ⟨trivial, hgroups, hunreachable⟩
  | log event => exact ⟨trivial, hgroups, hunreachable⟩
  | learn registry => exact ⟨trivial, hgroups, hunreachable⟩

/-- Members that are told are those of the group. -/
theorem group?_of_truthful {c : Cluster} {group : Group} {p : Peer} {id : GroupId}
    {info : GroupInfoReply} (h : c.Truthful ⟨.groupInfo group p id, .ok info⟩)
    (hsuccess : info.reply.success = true) : c.group? id = some info.group := by
  change Except.ok info = if c.isReachable p.id then .ok (c.infoFrom p.id id) else _ at h
  split at h
  · obtain rfl := Except.ok.inj h
    obtain ⟨hmember, hgroup⟩ := c.infoFrom_spec id p.id
    exact (hgroup (hmember ▸ hsuccess)).2
  · cases h

/-- Whether a peer can be reached and belongs to a group. -/
def advertises (c : Cluster) (p : Peer) : Bool :=
  c.isReachable p.id && !(c.groupsOf p.id).isEmpty

/-- Whether a peer can be reached and is a member of this group. -/
def serves (c : Cluster) (id : GroupId) (p : Peer) : Bool :=
  c.isReachable p.id && c.hasMember id p.id

/-- The group that the candidates belong to. -/
def listed (c : Cluster) (candidates : Group) : Except AdminError GroupId :=
  match candidates.peers.find? c.advertises with
  | some p => Resolution.sole (c.groupsOf p.id)
  | none => .error (Resolution.noReachablePeer .listGroups candidates)

/-- What the candidates know about a group. -/
def informed (c : Cluster) (candidates : Group) (id : GroupId) : Except AdminError GroupInfoReply :=
  match candidates.peers.find? (c.serves id) with
  | some p => .ok (c.infoFrom p.id id)
  | none => .error (Resolution.noReachablePeer .groupInfo candidates)

/-- The group that is known, or that the candidates belong to. -/
def identified (c : Cluster) (seed : Seed) (candidates : Group) : Except AdminError GroupId :=
  match seed.id? with
  | some id => .ok id
  | none => c.listed candidates

/-- The identified group, as the candidates know it. -/
def resolved (c : Cluster) (seed : Seed) (candidates : Group) : Except AdminError ResolvedGroup :=
  (c.identified seed candidates).bind fun id =>
    (c.informed candidates id).map (Resolution.assemble candidates id)

end Cluster

/-! ### What a resolution comes to -/

namespace Resolution

variable {c : Cluster} {candidates : Group} {seed : Seed} {xs : List Turn}

theorem askGroups_eq {p : Peer} {answer : Except RpcFailure (Option (List GroupId))}
    (h : Path (askGroups candidates p) xs answer) (hxs : ∀ x ∈ xs, c.Truthful x) :
    answer.toOption.join = (Option.guard c.advertises p).map fun p => c.groupsOf p.id := by
  obtain ⟨reply, rfl, rfl⟩ := path_askGroups h
  obtain rfl := hxs _ List.mem_cons_self
  cases hreach : c.isReachable p.id <;> cases hids : (c.groupsOf p.id).isEmpty <;>
    simp [Except.map, Except.toOption, Option.guard, Cluster.advertises, hreach, hids]

theorem askInfo_eq {id : GroupId} {p : Peer} {answer : Except RpcFailure (Option GroupInfoReply)}
    (h : Path (askInfo candidates id p) xs answer) (hxs : ∀ x ∈ xs, c.Truthful x) :
    answer.toOption.join = (Option.guard (c.serves id) p).map fun p => c.infoFrom p.id id := by
  obtain ⟨reply, us, rfl, -, rfl⟩ := path_askInfo h
  obtain rfl := hxs _ List.mem_cons_self
  obtain ⟨hsuccess, hgroup⟩ := c.infoFrom_spec id p.id
  cases hreach : c.isReachable p.id with
  | false => simp [Except.map, Except.toOption, Option.guard, Cluster.serves, hreach]
  | true =>
    cases hmember : c.hasMember id p.id with
    | false =>
      simp [Except.map, Except.toOption, Option.guard, Cluster.serves, hreach, hmember, hsuccess]
    | true =>
      simp [Except.map, Except.toOption, Option.guard, Cluster.serves, hreach, hmember, hsuccess,
        (hgroup hmember).1]

/-- Asking all candidates comes to what the first of them says that has something to say. -/
theorem askAll_eq {β : Type} {inquiry : Inquiry}
    {ask : Peer → Script (Except RpcFailure (Option β))} {q : Peer → Bool} {f : Peer → β}
    (hask : ∀ p ys answer, Path (ask p) ys answer → (∀ y ∈ ys, c.Truthful y) →
      answer.toOption.join = (Option.guard q p).map f)
    {r : Except AdminError β} (h : Path (askAll candidates inquiry ask).run xs r)
    (hxs : ∀ x ∈ xs, c.Truthful x) :
    r = match candidates.peers.find? q with
      | some p => .ok (f p)
      | none => .error (noReachablePeer inquiry candidates) := by
  obtain ⟨found, hanswer, rfl⟩ := path_askAll h
  have hfound : found = (candidates.peers.find? q).map f := by
    rw [Retry.firstAnswer_eq_findSome? (fun p _ => hask p) hanswer hxs, ← List.findSome?_guard,
      List.map_findSome?]
    rfl
  rw [hfound]
  cases candidates.peers.find? q <;> rfl

theorem discover_eq {r : Except AdminError GroupId} (h : Path (discover candidates).run xs r)
    (hxs : ∀ x ∈ xs, c.Truthful x) : r = c.listed candidates := by
  obtain ⟨ys, us, found, hys, -, rfl, rfl⟩ := path_discover h
  rw [askAll_eq (fun _ _ _ => askGroups_eq) hys fun y hy => hxs y (List.mem_append_left _ hy),
    Cluster.listed]
  cases candidates.peers.find? c.advertises <;> rfl

theorem fetchInfo_eq {id : GroupId} {r : Except AdminError GroupInfoReply}
    (h : Path (fetchInfo candidates id).run xs r) (hxs : ∀ x ∈ xs, c.Truthful x) :
    r = c.informed candidates id :=
  askAll_eq (fun _ _ _ => askInfo_eq) h hxs

theorem inquire_eq {r : Except AdminError (GroupId × GroupInfoReply)}
    (h : Path (inquire candidates seed).run xs r) (hxs : ∀ x ∈ xs, c.Truthful x) :
    (r.map fun (id, info) => assemble candidates id info) = c.resolved seed candidates := by
  rcases path_inquire h with ⟨e, hseed, he, rfl⟩ | ⟨id, ys, zs, found, hid, hfound, rfl, rfl⟩
  · rw [Cluster.resolved, Cluster.identified, hseed]
    dsimp only
    rw [← discover_eq he hxs]
    rfl
  · have hidentified : c.identified seed candidates = .ok id := by
      rw [Cluster.identified]
      rcases hid with ⟨hseed, -⟩ | ⟨hseed, hdiscover⟩
      · rw [hseed]
      · rw [hseed, discover_eq hdiscover fun y hy => hxs y (List.mem_append_left _ hy)]
    rw [Cluster.resolved, hidentified]
    change _ = (c.informed candidates id).map _
    rw [← fetchInfo_eq hfound fun z hz => hxs z (List.mem_append_right _ hz)]
    cases found <;> rfl

/-- A resolution is answered by the groups as they are when it begins, and leaves them so. -/
theorem resolve_truthful (conf : Configuration) (request : GroupRequest) (s : Session Cluster) :
    (∀ x ∈ (resolve conf request).run.turns (Session.world Cluster.connector) s,
      s.cluster.Truthful x) ∧
      s.cluster.Alike (Session.run Cluster.connector (resolve conf request).run s).2.cluster :=
  (Script.Only.mono (fun _ h => h.asks) (only_resolve conf request)).run
    (I := fun t => s.cluster.Alike t.cluster)
    (fun action t => Cluster.truthful_answer action t) ⟨rfl, rfl⟩

/-- A resolution that is answered by the groups of a cluster comes to what can be looked up in
them. -/
theorem resolve_eq_of_path {conf : Configuration} {request : GroupRequest}
    {r : Except AdminError ResolvedGroup} (h : Path (resolve conf request).run xs r)
    (hxs : ∀ x ∈ xs, c.Truthful x) :
    r = (plan conf request).bind fun (seed, candidates) => c.resolved seed candidates := by
  rcases path_resolve h with ⟨e, hplan, rfl⟩ |
    ⟨seed, candidates, hplan, ⟨failure, hrefused, -⟩ | ⟨ys, found, hys, hsub, rfl⟩⟩
  · rw [hplan]
    rfl
  · exact absurd (hxs _ hrefused) (by simp [Cluster.Truthful])
  · rw [hplan]
    exact inquire_eq hys fun y hy => hxs y (hsub hy)

/-- A resolution over a cluster comes to what can be looked up in its groups. -/
theorem resolve_eq (conf : Configuration) (request : GroupRequest) (s : Session Cluster) :
    (Session.run Cluster.connector (resolve conf request).run s).1 =
      (plan conf request).bind fun (seed, candidates) => s.cluster.resolved seed candidates :=
  resolve_eq_of_path (Script.path_run _ _ s) (resolve_truthful conf request s).1

/-! ### Exactness -/

variable {addresses : List PeerAddress}

theorem peers_candidateGroup (seed : Seed) (addresses : List PeerAddress) :
    (candidateGroup seed addresses).peers = addresses.eraseDups.map Peer.ofAddress :=
  firstById_map_ofAddress addresses

/-- With a list of peers to ask, only the group id can be wrong with a request. -/
theorem plan_eq {conf : Configuration} {request : GroupRequest} {list : String}
    (hpeers : request.peers? = some list) (hlist : readPeerList list = .ok addresses)
    (hne : addresses ≠ []) :
    plan conf request =
      (request.seed conf).1.map fun seed => (seed, candidateGroup seed addresses) := by
  have haddresses : request.addresses conf = (.ok addresses, conf) := by
    simp [GroupRequest.addresses, GroupRequest.peerText, GroupRequest.addressesOf, hpeers, hlist,
      hne]
  have hseeded : ∀ seed, seeded seed addresses = .ok (seed, candidateGroup seed addresses) := by
    intro seed
    have hsome : (candidateGroup seed addresses).isEmpty = false := by
      obtain ⟨a, as, rfl⟩ := List.exists_cons_of_ne_nil hne
      rfl
    simp [seeded, hsome]
  rw [plan, haddresses]
  change (request.seed conf).1.bind (fun seed => seeded seed addresses) = _
  simp only [hseeded]
  rfl

/-- What a member says about its group is put together to the group as it is in the cluster. -/
theorem group?_eq_assemble {id : GroupId} {p : Peer} (hmember : c.hasMember id p.id) :
    c.group? id = some (assemble candidates id (c.infoFrom p.id id)).group := by
  have hgroup := ((c.infoFrom_spec id p.id).2 hmember).2
  have hid := Cluster.id_of_group? hgroup
  generalize c.infoFrom p.id id = info at hgroup hid
  rw [hgroup, assemble, ← hid, Group.of_peers]

/-- The group that is found is the group as it is in the cluster. -/
theorem group?_of_resolved {found : ResolvedGroup} (h : c.resolved seed candidates = .ok found) :
    c.group? found.group.id = some found.group := by
  unfold Cluster.resolved Cluster.informed at h
  cases hid : c.identified seed candidates with
  | error e => simp [hid, Except.bind] at h
  | ok id =>
    cases hfind : candidates.peers.find? (c.serves id) with
    | none => simp [hid, hfind, Except.bind, Except.map] at h
    | some p =>
      simp only [hid, hfind, Except.bind, Except.map, Except.ok.injEq] at h
      have hserves : c.serves id p = true := List.find?_some hfind
      have hgroup : c.group? id = some (assemble candidates id (c.infoFrom p.id id)).group :=
        group?_eq_assemble (Bool.and_eq_true_iff.mp hserves).2
      rw [h] at hgroup
      rw [Cluster.id_of_group? hgroup, hgroup]

/-- The group with a known id is found exactly if a candidate can be reached and is a member, and it
is found as it is in the cluster. -/
theorem resolved_known (c : Cluster) (candidates : Group) (seed : Seed) {id : GroupId}
    (hseed : seed.id? = some id) :
    ((∃ found, c.resolved seed candidates = .ok found) ↔
      ∃ p ∈ candidates.peers, c.isReachable p.id ∧ c.hasMember id p.id) ∧
    (∀ found, c.resolved seed candidates = .ok found → c.group? id = some found.group) ∧
    ∀ e, c.resolved seed candidates = .error e → e = noReachablePeer .groupInfo candidates := by
  have hresolved : c.resolved seed candidates =
      (c.informed candidates id).map (assemble candidates id) := by
    rw [Cluster.resolved, Cluster.identified, hseed]
    rfl
  rw [hresolved, Cluster.informed]
  cases hfind : candidates.peers.find? (c.serves id) with
  | none =>
    have hnone := List.find?_eq_none.mp hfind
    simp only [Cluster.serves, Bool.and_eq_true, not_and] at hnone
    refine ⟨⟨fun ⟨_, h⟩ => (nomatch h), fun ⟨p, hp, hreach, hmember⟩ => ?_⟩, fun _ h => (nomatch h),
      fun e h => (Except.error.inj h).symm⟩
    exact absurd hmember (hnone p hp hreach)
  | some p =>
    have hserves := List.find?_some hfind
    simp only [Cluster.serves, Bool.and_eq_true] at hserves
    refine ⟨⟨fun _ => ⟨p, List.mem_of_find?_eq_some hfind, hserves⟩, fun _ => ⟨_, rfl⟩⟩, ?_,
      fun _ h => (nomatch h)⟩
    intro found h
    obtain rfl := Except.ok.inj h
    exact group?_eq_assemble hserves.2

theorem sole_eq_error {ids : List GroupId} (h : ∀ id, ids ≠ [id]) :
    sole ids = .error (.ambiguousGroup ids) := by
  unfold sole
  split
  · next id => exact absurd rfl (h id)
  · rfl

/-- Under distinct ids, a peer names a group if it is a member of one. -/
theorem advertises_eq {ids : List GroupId} (hids : c.groups.map (·.group.id) = ids)
    (hdistinct : ids.Nodup) :
    c.advertises = fun p => c.isReachable p.id && ids.any (c.hasMember · p.id) := by
  funext p
  have hany : (!(ids.filter (c.hasMember · p.id)).isEmpty) = ids.any (c.hasMember · p.id) := by
    rw [Bool.eq_iff_iff]
    simp
  rw [Cluster.advertises, Cluster.groupsOf_eq_filter (hids ▸ hdistinct), hids, hany]

/-- Without a known id, the first candidate that can be reached and belongs to a group decides. -/
theorem resolved_unknown (candidates : Group) (seed : Seed) {ids : List GroupId}
    (hids : c.groups.map (·.group.id) = ids) (hdistinct : ids.Nodup) (hseed : seed.id? = none) :
    match candidates.peers.find? fun p => c.isReachable p.id && ids.any (c.hasMember · p.id) with
    | none => c.resolved seed candidates = .error (noReachablePeer .listGroups candidates)
    | some p =>
      match ids.filter (c.hasMember · p.id) with
      | [id] => ∃ found, c.resolved seed candidates = .ok found ∧ c.group? id = some found.group
      | several => c.resolved seed candidates = .error (.ambiguousGroup several) := by
  rw [← advertises_eq hids hdistinct]
  cases hfind : candidates.peers.find? c.advertises with
  | none => simp [Cluster.resolved, Cluster.identified, Cluster.listed, hseed, hfind, Except.bind]
  | some p =>
    -- the id that is found is then as good as one that was configured
    have hresolved : c.resolved seed candidates = (sole (ids.filter (c.hasMember · p.id))).bind
        fun id => c.resolved (.configured id) candidates := by
      rw [← hids, ← Cluster.groupsOf_eq_filter (hids ▸ hdistinct)]
      simp only [Cluster.resolved, Cluster.identified, Cluster.listed, hseed, hfind]
      rfl
    rw [hresolved]
    dsimp only
    split
    · next id hid =>
      obtain ⟨hfound, hgroup, -⟩ := resolved_known c candidates (.configured id) rfl
      have hmember : c.hasMember id p.id :=
        (List.mem_filter.mp (hid ▸ List.mem_cons_self : id ∈ ids.filter (c.hasMember · p.id))).2
      have hadvertises : c.advertises p := List.find?_some hfind
      have hreach : c.isReachable p.id := (Bool.and_eq_true_iff.mp hadvertises).1
      obtain ⟨found, hok⟩ := hfound.mpr ⟨p, List.mem_of_find?_eq_some hfind, hreach, hmember⟩
      rw [hid]
      exact ⟨found, hok, hgroup found hok⟩
    · next several hseveral =>
      rw [sole_eq_error hseveral]
      rfl

/-- **What a resolution finds.** Over a reached cluster whose groups have distinct ids, a resolution
with a list of peers to ask finds the group with a given id exactly if one of these peers can be
reached and is a member. Without an id it goes by the first peer that can be reached and belongs to
a group, and finds this group if it is the only one. The group it finds is the group as it is in the
cluster. -/
theorem resolve_exact {ids : List GroupId} {s : Session Cluster}
    (hreached : Cluster.Reached ids s.cluster) (hdistinct : ids.Nodup) (conf : Configuration)
    {list : String} (hlist : readPeerList list = .ok addresses) (hne : addresses ≠ []) :
    let candidates := addresses.eraseDups.map Peer.ofAddress
    let unanswered := fun inquiry : Inquiry =>
      AdminError.noReachablePeer inquiry.text (candidates.map (·.address.text))
    let outcome := fun request => (Session.run Cluster.connector (resolve conf request).run s).1
    (∀ raw id service?, GroupId.ofString raw = .ok id →
      let r := outcome ⟨some list, some raw, service?⟩
      ((∃ found, r = .ok found) ↔
        ∃ p ∈ candidates, s.cluster.isReachable p.id ∧ s.cluster.hasMember id p.id) ∧
      (∀ found, r = .ok found → s.cluster.group? id = some found.group) ∧
      ∀ e, r = .error e → e = unanswered .groupInfo) ∧
    let r := outcome ⟨some list, none, none⟩
    match candidates.find? fun p =>
        s.cluster.isReachable p.id && ids.any (s.cluster.hasMember · p.id) with
    | none => r = .error (unanswered .listGroups)
    | some p =>
      match ids.filter (s.cluster.hasMember · p.id) with
      | [id] => ∃ found, r = .ok found ∧ s.cluster.group? id = some found.group
      | several => r = .error (.ambiguousGroup several) := by
  intro candidates unanswered outcome
  have hunanswered : ∀ inquiry seed,
      noReachablePeer inquiry (candidateGroup seed addresses) = unanswered inquiry := by
    intro inquiry seed
    rw [noReachablePeer, peers_candidateGroup]
  constructor
  · intro raw id service? hraw
    have hseed : (GroupRequest.seed ⟨some list, some raw, service?⟩ conf).1
        = .ok (.explicit id) := by
      simp [GroupRequest.seed, hraw]
    have hr : outcome ⟨some list, some raw, service?⟩
        = s.cluster.resolved (.explicit id) (candidateGroup (.explicit id) addresses) := by
      dsimp only [outcome]
      rw [resolve_eq, plan_eq rfl hlist hne, hseed]
      rfl
    dsimp only
    rw [hr, ← hunanswered _ (.explicit id)]
    have hknown := resolved_known s.cluster (candidateGroup (.explicit id) addresses)
      (.explicit id) rfl
    rwa [peers_candidateGroup] at hknown
  · have hr : outcome ⟨some list, none, none⟩
        = s.cluster.resolved .fallback (candidateGroup .fallback addresses) := by
      dsimp only [outcome]
      rw [resolve_eq, plan_eq rfl hlist hne]
      rfl
    dsimp only
    rw [hr, ← hunanswered _ .fallback]
    have hunknown := resolved_unknown (candidateGroup .fallback addresses) .fallback hreached.map_id
      hdistinct rfl
    rwa [peers_candidateGroup] at hunknown

/-- A group id other than the one that a cluster is bootstrapped with. -/
def fives : GroupId := ⟨List.replicate 32 ⟨5, by decide⟩, rfl⟩

/-- Two groups that share a peer, and a peer that cannot be reached. -/
def overlapping : Cluster :=
  let h1 := Peer.ofAddress ⟨"h1", 9870⟩
  let h2 := Peer.ofAddress ⟨"h2", 9870⟩
  let h3 := Peer.ofAddress ⟨"h3", 9870⟩
  ((Cluster.empty.addGroup (.of .bootstrap [h1, h2]) none).addGroup (.of fives [h2, h3]) none)
    |>.setUnreachable h1.id

/-- The shared peer names both groups, and knows each of them. -/
theorem resolve_exact_overlapping :
    let outcome := fun groupId? => (Session.run Cluster.connector
      (resolve .empty ⟨some "h1:9870,h2:9870", groupId?, none⟩).run
      (.start overlapping .empty none)).1
    (∃ found, outcome (some "55555555-5555-5555-5555-555555555555") = .ok found ∧
      overlapping.group? fives = some found.group) ∧
    outcome none = .error (.ambiguousGroup [.bootstrap, fives]) := by
  have hreached : Cluster.Reached [.bootstrap, fives] overlapping :=
    ((Cluster.Reached.empty.addGroup (.of .bootstrap _) _).addGroup
      (.of fives _) _).setUnreachable _
  have hlist : readPeerList "h1:9870,h2:9870" = .ok [⟨"h1", 9870⟩, ⟨"h2", 9870⟩] := rfl
  obtain ⟨hknown, hunknown⟩ := resolve_exact (s := .start overlapping .empty none) hreached
    (by decide) .empty hlist (by decide)
  obtain ⟨hfound, hgroup, -⟩ := hknown "55555555-5555-5555-5555-555555555555" fives none rfl
  refine ⟨?_, hunknown⟩
  obtain ⟨found, hok⟩ := hfound.mpr ⟨.ofAddress ⟨"h2", 9870⟩, by decide, rfl, rfl⟩
  exact ⟨found, hok, hgroup found hok⟩

end Resolution

end RaftAdmin
