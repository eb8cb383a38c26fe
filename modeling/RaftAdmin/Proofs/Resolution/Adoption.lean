import Mathlib
import RaftAdmin.Http.Client
import RaftAdmin.Proofs.Resolution.Cluster

/-!
# Where a resolved group comes from

Whoever the candidates are and whatever they answer: the id of a resolved group was known, or it is
the only one that a candidate named, and the members are those of a reply to a question about this
id. That the reply is about the group it was asked for is up to the candidate. Nobody checks it, and
the members go under the id that was asked for.

## What is proved

* **`resolve_adopts`** — where id and members of a resolved group come from, and that the reply is
  about this group if candidates answer about the groups they are asked for.
* **`exists_foreign_members`** — over HTTP, a peer that answers about another group has its members
  taken for those of the group it was asked for.
-/

namespace RaftAdmin

open Script (Path)

namespace Resolution

/-- The id was known, or it is the only one that a candidate named. -/
def Identified (seed : Seed) (candidates : Group) (xs : List Turn) (id : GroupId) : Prop :=
  seed.id? = some id ∨
    seed.id? = none ∧ ∃ p ∈ candidates.peers, ⟨.listGroups candidates p, .ok [id]⟩ ∈ xs

/-- The members are those of a reply to a question about the id of the group. -/
structure Adopted (candidates : Group) (xs : List Turn) (r : ResolvedGroup) : Prop where
  /-- A candidate gave the reply when it was asked about this id. -/
  asked : ∃ p ∈ candidates.peers, ⟨.groupInfo candidates p r.group.id, .ok r.info⟩ ∈ xs
  /-- The candidate knows about the group. -/
  success : r.info.reply.success = true
  /-- It names members. -/
  nonempty : r.info.group.isEmpty = false
  /-- They are the members. -/
  peers : r.group.peers = r.info.group.peers

variable {candidates : Group} {seed : Seed} {xs ys : List Turn}

theorem Identified.mono {id : GroupId} (h : Identified seed candidates ys id) (hsub : ys ⊆ xs) :
    Identified seed candidates xs id :=
  h.imp_right fun ⟨hseed, p, hp, hturn⟩ => ⟨hseed, p, hp, hsub hturn⟩

theorem Adopted.mono {r : ResolvedGroup} (h : Adopted candidates ys r) (hsub : ys ⊆ xs) :
    Adopted candidates xs r :=
  { h with asked := h.asked.imp fun _ ⟨hp, hturn⟩ => ⟨hp, hsub hturn⟩ }

/-- What all candidates together say, one of them says. -/
theorem exists_path_of_askAll {β : Type} {inquiry : Inquiry}
    {ask : Peer → Script (Except RpcFailure (Option β))} {b : β}
    (h : Path (askAll candidates inquiry ask).run xs (.ok b)) :
    ∃ p ∈ candidates.peers, ∃ ys, Path (ask p) ys (.ok (some b)) ∧ ys ⊆ xs := by
  obtain ⟨_ | value, hfound, hvalue⟩ := path_askAll h
  · cases hvalue
  · obtain rfl := Except.ok.inj hvalue
    exact Retry.exists_path_of_firstAnswer hfound

theorem identified_of_discover {id : GroupId} (hseed : seed.id? = none)
    (h : Path (discover candidates).run xs (.ok id)) : Identified seed candidates xs id := by
  obtain ⟨ys, us, found, hfound, -, rfl, hid⟩ := path_discover h
  have hsole : found = .ok [id] := by
    match found, hid with
    | .ok [id'], hid => rw [Except.ok.inj hid]
  subst hsole
  obtain ⟨p, hp, zs, hzs, hsub⟩ := exists_path_of_askAll hfound
  obtain ⟨_ | ids, rfl, hids⟩ := path_askGroups hzs
  · cases hids
  · have hids := Except.ok.inj hids
    dsimp only at hids
    split at hids
    · cases hids
    · obtain rfl := Option.some.inj hids
      exact .inr ⟨hseed, p, hp, List.mem_append_left _ (hsub List.mem_cons_self)⟩

theorem adopted_of_fetchInfo {id : GroupId} {info : GroupInfoReply}
    (h : Path (fetchInfo candidates id).run xs (.ok info)) :
    Adopted candidates xs (assemble candidates id info) := by
  obtain ⟨p, hp, ys, hys, hsub⟩ := exists_path_of_askAll h
  obtain ⟨_ | info', us, rfl, -, hinfo⟩ := path_askInfo hys
  · cases hinfo
  · have hinfo := Except.ok.inj hinfo
    dsimp only at hinfo
    split at hinfo
    · next htaken =>
      obtain rfl := Option.some.inj hinfo
      rw [Bool.and_eq_true, Bool.not_eq_true'] at htaken
      exact ⟨⟨p, hp, hsub List.mem_cons_self⟩, htaken.1, htaken.2, firstById_eq_self info.group.distinct⟩
    · cases hinfo

theorem adopts_of_inquire {id : GroupId} {info : GroupInfoReply}
    (h : Path (inquire candidates seed).run xs (.ok (id, info))) :
    Identified seed candidates xs id ∧ Adopted candidates xs (assemble candidates id info) := by
  rcases path_inquire h with ⟨_, -, -, he⟩ | ⟨id', ys, zs, found, hid, hfound, rfl, hok⟩
  · cases he
  · match found, hok with
    | .ok info', hok =>
      obtain ⟨rfl, rfl⟩ := Prod.mk.inj (Except.ok.inj hok)
      refine ⟨?_, (adopted_of_fetchInfo hfound).mono (List.subset_append_right _ _)⟩
      rcases hid with ⟨hseed, -⟩ | ⟨hseed, hdiscover⟩
      · exact .inl hseed
      · exact (identified_of_discover hseed hdiscover).mono (List.subset_append_left _ _)

/-- Whatever is replied, the members of a resolved group are adopted from a candidate. -/
theorem adopted_of_path {conf : Configuration} {request : GroupRequest} {r : ResolvedGroup}
    (h : Path (resolve conf request).run xs (.ok r)) : ∃ candidates, Adopted candidates xs r := by
  rcases path_resolve h with ⟨_, -, he⟩ | ⟨_, candidates, -, ⟨_, -, he⟩ | ⟨ys, found, hys, hsub, hok⟩⟩
  · cases he
  · cases he
  · match found, hok with
    | .ok (id, info), hok =>
      obtain rfl := Except.ok.inj hok
      exact ⟨candidates, (adopts_of_inquire hys).2.mono hsub⟩

/-- A resolved group has the id that was known or that a candidate named, and the members of a reply
to a question about this id. If candidates answer about the group they are asked for, the reply is
about this very group. -/
theorem resolve_adopts {σ : Type} (w : Script.World σ) (conf : Configuration)
    (request : GroupRequest) (s : σ) {r : ResolvedGroup}
    (hr : ((resolve conf request).run.run w s).1 = .ok r) :
    let xs := (resolve conf request).run.turns w s
    ∃ seed candidates, plan conf request = .ok (seed, candidates) ∧
      Identified seed candidates xs r.group.id ∧ Adopted candidates xs r ∧
      ((∀ group p info, ⟨.groupInfo group p r.group.id, .ok info⟩ ∈ xs → info.reply.success = true →
          info.group.isEmpty = false → info.group.id = r.group.id) →
        r.info.group.id = r.group.id ∧ r.info.group = r.group) := by
  intro xs
  have hpath := Script.path_run w (resolve conf request).run s
  rw [hr] at hpath
  rcases path_resolve hpath with ⟨_, -, he⟩ |
    ⟨seed, candidates, hplan, ⟨_, -, he⟩ | ⟨ys, found, hys, hsub, hok⟩⟩
  · cases he
  · cases he
  · match found, hok with
    | .ok (id, info), hok =>
      obtain rfl := Except.ok.inj hok
      obtain ⟨hid, hadopted⟩ := adopts_of_inquire hys
      refine ⟨seed, candidates, hplan, hid.mono hsub, hadopted.mono hsub, fun hfaithful => ?_⟩
      obtain ⟨p, hp, hturn⟩ := hadopted.asked
      have hsame := hfaithful candidates p info (hsub hturn) hadopted.success hadopted.nonempty
      refine ⟨hsame, (Group.of_peers info.group).symm.trans ?_⟩
      rw [hsame]
      rfl

/-! ### Answers about the group that was asked for -/

/-- The members of a cluster answer about the group that they are asked for. -/
theorem id_of_truthful {c : Cluster} {group : Group} {p : Peer} {id : GroupId}
    {info : GroupInfoReply} (h : c.Truthful ⟨.groupInfo group p id, .ok info⟩)
    (hsuccess : info.reply.success = true) : info.group.id = id :=
  Cluster.id_of_group? (Cluster.group?_of_truthful h hsuccess)

/-- The request for the groups of one peer. -/
def loneRequest : GroupRequest := ⟨some "h1:9870", none, none⟩

/-- The group of that peer. -/
def loneCluster : Cluster :=
  Cluster.empty.addGroup (.of .bootstrap [.ofAddress ⟨"h1", 9870⟩]) none

theorem resolve_adopts_lone :
    ∃ r, (Session.run Cluster.connector (resolve .empty loneRequest).run
        (.start loneCluster .empty none)).1 = .ok r ∧
      r.info.group.id = r.group.id ∧ r.info.group = r.group := by
  obtain ⟨r, hr⟩ : ∃ r, (Session.run Cluster.connector (resolve .empty loneRequest).run
      (.start loneCluster .empty none)).1 = .ok r := by
    rw [resolve_eq]
    exact ⟨_, rfl⟩
  obtain ⟨_, _, -, -, -, hfaithful⟩ := resolve_adopts (Session.world Cluster.connector) .empty
    loneRequest (.start loneCluster .empty none) hr
  exact ⟨r, hr, hfaithful fun _ _ _ hturn hsuccess _ =>
    id_of_truthful ((resolve_truthful _ _ _).1 _ hturn) hsuccess⟩

/-! ### An answer about another group -/

/-- A peer that is asked for a group and answers about another one. -/
def strayHost : PeerAddress := ⟨"h1", 9870⟩

/-- Its answer. -/
def strayBody : String :=
  "\x7b\"success\":true,\"group\":\x7b\"id\":\"55555555-5555-5555-5555-555555555555\"," ++
    "\"peers\":[\x7b\"id\":\"h9_9870\",\"address\":\"h9:9870\"\x7d]\x7d\x7d"

/-- The network of this peer. -/
def strayNetwork : Http.Transport Unit where
  hosts := [strayHost]
  send r w := (if r.address = strayHost then .complete 200 strayBody else .failed, w)
  silent r w h := if_neg (by simpa using h)

/-- The request for the group that a cluster is bootstrapped with. -/
def bootstrapRequest : GroupRequest :=
  ⟨some "h1:9870", some "00000001-0001-0001-0001-000000000001", none⟩

/-- Its resolution over HTTP has the id that was asked for, and the members of another group. -/
theorem ids_strayNetwork :
    ((Session.run (Http.connector ⟨"http", 15000⟩ strayNetwork)
      (resolve .empty bootstrapRequest).run (.start () .empty none)).1.map
        fun r => (r.group.id, r.info.group.id)) = .ok (.bootstrap, fives) := by
  cbv

/-- **Members of another group.** A peer is asked for one group, its answer about another one is
taken, and the members of this other group become the members of the group that was asked for. -/
theorem exists_foreign_members :
    ∃ (settings : Http.Settings) (t : Http.Transport Unit) (conf : Configuration)
      (request : GroupRequest) (r : ResolvedGroup),
      (Session.run (Http.connector settings t) (resolve conf request).run
        (.start () conf none)).1 = .ok r ∧ r.info.group.id ≠ r.group.id := by
  have hforeign : ∀ {x : Except AdminError ResolvedGroup},
      (x.map fun r => (r.group.id, r.info.group.id)) = .ok (.bootstrap, fives) →
        ∃ r, x = .ok r ∧ r.info.group.id ≠ r.group.id := by
    rintro (_ | r) h
    · cases h
    · obtain ⟨hgroup, hinfo⟩ := Prod.mk.inj (Except.ok.inj h)
      refine ⟨r, rfl, ?_⟩
      rw [hgroup, hinfo]
      decide
  exact ⟨_, _, _, _, hforeign ids_strayNetwork⟩

end Resolution

end RaftAdmin
