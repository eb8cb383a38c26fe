import RaftAdmin.Proofs.Command.Mistake
import RaftAdmin.Proofs.Resolution.Cluster
import RaftAdmin.Proofs.Resolution.Pass

/-!
# Whom a resolution asks

An operator lists some peers, and any of them may be down, or know nothing. A resolution must find
the group if one of them tells it, and must not bother them more than needed. This module says whom
it asks what, and when it gives up.

## The model

The group id is known before anybody is asked if the request has one, or if one that can be used is
configured for the service (`GroupRequest.knownId?`). The candidates are the peers at the addresses
of the request, each once (`planned`).

## What is proved

* `Asking.noReachablePeer_iff` — that nobody is reachable is the error exactly if one of the two
  questions was put to every candidate and no answer was taken.
* `Asking.chosen_of_groups`, `Asking.ok_of_info` — an answer that names groups, or tells the
  members, is taken.
* `Asking.once` — no question is put twice to anybody.
* **`resolve_disciplined`** — all this holds of every request, whoever replies.
-/

namespace RaftAdmin

open Script (Path)

namespace Resolution

variable {candidates : Group} {id : GroupId} {known? : Option GroupId}
  {reply : Except RpcFailure Unit} {listing informing : List Turn}
  {r : Except AdminError ResolvedGroup}

/-! ### How a resolution fails -/

theorem nodup_peers (group : Group) : group.peers.Nodup :=
  group.distinct.imp fun hid heq => hid (congrArg Peer.id heq)

theorem nodup_listGroups (candidates : Group) :
    (candidates.peers.map fun p => Action.listGroups candidates p).Nodup :=
  (nodup_peers candidates).map fun p q h => by simpa using h

theorem nodup_groupInfo (candidates : Group) (id : GroupId) :
    (candidates.peers.map fun p => Action.groupInfo candidates p id).Nodup :=
  (nodup_peers candidates).map fun p q h => by simpa using h

/-- All candidates were asked for the groups that they belong to, and none named any. -/
def Unlisted (candidates : Group) : List Turn → Prop :=
  Unanswered (fun p => .listGroups candidates p) Turn.groups? candidates.peers

/-- All candidates were asked about one group, and none knew its members. -/
def Uninformed (candidates : Group) (informing : List Turn) : Prop :=
  ∃ id, Unanswered (fun p => .groupInfo candidates p id) Turn.info? candidates.peers informing

theorem Listing.unlisted_iff {ids? : Option (List GroupId)}
    (h : Listing candidates listing ids?) : Unlisted candidates listing ↔ ids? = none :=
  Pass.unanswered_iff h (nodup_listGroups candidates)

/-- If the group id was found there was an answer. -/
theorem Chosen.not_unlisted (h : Chosen candidates known? listing id)
    (hne : candidates.peers ≠ []) : ¬ Unlisted candidates listing := by
  rcases h with ⟨-, rfl⟩ | ⟨-, hlisting⟩
  · exact not_unanswered_nil hne
  · rw [hlisting.unlisted_iff]
    exact Option.some_ne_none _

theorem Informing.uninformed_iff {info? : Option GroupInfoReply}
    (h : Informing candidates id informing info?) (hne : candidates.peers ≠ []) :
    Uninformed candidates informing ↔ info? = none := by
  rw [← Pass.unanswered_iff h (nodup_groupInfo candidates id)]
  constructor
  · rintro ⟨id', hall⟩
    -- all questions are about one group
    obtain ⟨p, ps, hps⟩ := List.exists_cons_of_ne_nil hne
    obtain ⟨x, hx, haction, -⟩ := hall p (hps ▸ List.mem_cons_self)
    obtain ⟨q, -, hq⟩ := Pass.action_eq h hx
    obtain ⟨-, rfl⟩ : p = q ∧ id' = id := by simpa using haction.symm.trans hq
    exact hall
  · exact fun hall => ⟨id, hall⟩

theorem not_uninformed_nil (hne : candidates.peers ≠ []) : ¬ Uninformed candidates [] :=
  fun ⟨_, hall⟩ => not_unanswered_nil hne hall

/-- That nobody is reachable is the error exactly if one of the questions was put to all candidates
and no answer was taken. -/
theorem Asking.noReachablePeer_iff (h : Asking candidates known? reply listing informing r)
    (hne : candidates.peers ≠ []) (inquiry : String) (tried : List String) :
    r = .error (.noReachablePeer inquiry tried) ↔
      tried = candidates.peers.map (fun p => p.address.text) ∧
        (inquiry = Inquiry.listGroups.text ∧ Unlisted candidates listing ∨
          inquiry = Inquiry.groupInfo.text ∧ Uninformed candidates informing) := by
  have hinformed := not_uninformed_nil hne
  cases h with
  | refused failure =>
    have hlisted : ¬ Unlisted candidates [] := not_unanswered_nil hne
    simp [hlisted, hinformed]
  | unlisted hknown hlisting =>
    have hunlisted := hlisting.unlisted_iff.mpr rfl
    simp [noReachablePeer, hunlisted, hinformed, and_comm, eq_comm]
  | ambiguous hknown hlisting hlength =>
    have hlisted : ¬ Unlisted candidates listing := by simp [hlisting.unlisted_iff]
    simp [hlisted, hinformed]
  | uninformed hchosen hinforming =>
    have hlisted := hchosen.not_unlisted hne
    have huninformed := (hinforming.uninformed_iff hne).mpr rfl
    simp [noReachablePeer, hlisted, huninformed, and_comm, eq_comm]
  | informed hchosen hinforming =>
    have hlisted := hchosen.not_unlisted hne
    have hinformed : ¬ Uninformed candidates informing := by simp [hinforming.uninformed_iff hne]
    simp [hlisted, hinformed]

/-! ### Whom a resolution asks -/

/-- The calls of both questions go to different peers, or are different questions. -/
theorem Chosen.nodup_append (h : Chosen candidates known? listing id)
    {info? : Option GroupInfoReply} (hinforming : Informing candidates id informing info?) :
    ((listing ++ informing).map Turn.action).Nodup := by
  have hlisting : (listing.map Turn.action).Nodup ∧
      ∀ x ∈ listing, ∃ p, x.action = .listGroups candidates p := by
    rcases h with ⟨-, rfl⟩ | ⟨-, hlisting⟩
    · exact ⟨List.nodup_nil, by simp⟩
    · exact ⟨Pass.nodup hlisting (nodup_listGroups candidates),
        fun x hx => (Pass.action_eq hlisting hx).imp fun _ h => h.2⟩
  rw [List.map_append]
  refine hlisting.1.append (Pass.nodup hinforming (nodup_groupInfo candidates id)) ?_
  intro action hlist hinfo
  obtain ⟨x, hx, rfl⟩ := List.mem_map.mp hlist
  obtain ⟨y, hy, hsame⟩ := List.mem_map.mp hinfo
  obtain ⟨p, hp⟩ := hlisting.2 x hx
  obtain ⟨q, -, hq⟩ := Pass.action_eq hinforming hy
  rw [hp, hq] at hsame
  cases hsame

/-- Nobody is asked for groups if the id is known. -/
theorem Asking.listing_eq_nil (h : Asking candidates known? reply listing informing r)
    (hknown : known? ≠ none) : listing = [] := by
  cases h with
  | refused failure => rfl
  | unlisted hnone hlisting | ambiguous hnone hlisting hlength => exact absurd hnone hknown
  | uninformed hchosen hinforming | informed hchosen hinforming =>
    exact hchosen.elim (fun h => h.2) fun h => absurd h.1 hknown

theorem Asking.once (h : Asking candidates known? reply listing informing r) :
    ((listing ++ informing).map Turn.action).Nodup := by
  cases h with
  | refused failure => exact List.nodup_nil
  | unlisted hknown hlisting | ambiguous hknown hlisting hlength =>
    rw [List.append_nil]
    exact Pass.nodup hlisting (nodup_listGroups candidates)
  | uninformed hchosen hinforming | informed hchosen hinforming =>
    exact hchosen.nodup_append hinforming

/-- Once groups are named, the resolution goes on with the only one, or fails since there are
several. -/
theorem Asking.chosen_of_groups (h : Asking candidates known? reply listing informing r) {x : Turn}
    (hx : x ∈ listing) {ids : List GroupId} (hids : x.groups? = some ids) :
    (∃ id, ids = [id] ∧ Chosen candidates known? listing id) ∨
      r = .error (.ambiguousGroup ids) := by
  have hchosen : ∀ {id}, Chosen candidates known? listing id →
      ∃ id, ids = [id] ∧ Chosen candidates known? listing id := by
    rintro id (⟨-, rfl⟩ | ⟨hknown, hlisting⟩)
    · cases hx
    · obtain rfl : [id] = ids := Option.some.inj (Pass.found_of_taken hlisting hx hids)
      exact ⟨id, rfl, .inr ⟨hknown, hlisting⟩⟩
  cases h with
  | refused failure => cases hx
  | unlisted hknown hlisting => cases Pass.found_of_taken hlisting hx hids
  | ambiguous hknown hlisting hlength =>
    obtain rfl := Option.some.inj (Pass.found_of_taken hlisting hx hids)
    exact .inr rfl
  | uninformed hid hinforming | informed hid hinforming => exact .inl (hchosen hid)

/-- Once the members are known, the resolution succeeds with them. -/
theorem Asking.ok_of_info (h : Asking candidates known? reply listing informing r) {x : Turn}
    (hx : x ∈ informing) {info : GroupInfoReply} (hinfo : x.info? = some info) :
    ∃ id, Chosen candidates known? listing id ∧ r = .ok (assemble candidates id info) := by
  cases h with
  | refused failure | unlisted hknown hlisting | ambiguous hknown hlisting hlength => cases hx
  | uninformed hchosen hinforming => cases Pass.found_of_taken hinforming hx hinfo
  | informed hchosen hinforming =>
    obtain rfl := Option.some.inj (Pass.found_of_taken hinforming hx hinfo)
    exact ⟨_, hchosen, rfl⟩

/-- Only the first call opens a connection. -/
theorem Asking.countP_connects (h : Asking candidates known? reply listing informing r) :
    (listing ++ informing).countP (fun x => x.action.connects) = 0 := by
  have hlisting : ∀ {xs ids?}, Listing candidates xs ids? →
      ∀ x ∈ xs, x.action.connects = false := by
    intro xs ids? hlisting x hx
    obtain ⟨p, -, hp⟩ := Pass.action_eq hlisting hx
    rw [hp]
    rfl
  have hchosen : ∀ {id}, Chosen candidates known? listing id →
      ∀ x ∈ listing, x.action.connects = false := by
    rintro id (⟨-, rfl⟩ | ⟨-, hpass⟩)
    · simp
    · exact hlisting hpass
  have hinforming : ∀ {id info?}, Informing candidates id informing info? →
      ∀ x ∈ informing, x.action.connects = false := by
    intro id info? hinforming x hx
    obtain ⟨p, -, hp⟩ := Pass.action_eq hinforming hx
    rw [hp]
    rfl
  have hnone : ∀ x ∈ listing ++ informing, x.action.connects = false := by
    rw [List.forall_mem_append]
    cases h with
    | refused failure => simp
    | unlisted hknown hpass | ambiguous hknown hpass hlength => exact ⟨hlisting hpass, by simp⟩
    | uninformed hid hpass | informed hid hpass => exact ⟨hchosen hid, hinforming hpass⟩
  exact List.countP_eq_zero.mpr fun x hx => by simp [hnone x hx]

end Resolution

/-! ### The request -/

namespace GroupRequest

/-- The group id that is configured for a service, if there is one that can be used. -/
def configuredId? (c : Configuration) (service : String) : Option GroupId :=
  let k := c.templateKey .serviceGroupId service
  ((c.afterTemplateKey .serviceGroupId service).get k).toOption.bind fun raw =>
    (GroupId.ofString raw).toOption

/-- The group id that is known before anybody is asked: the one of the request, or one that is
configured for the service, after the peers to ask were looked up. -/
def knownId? (r : GroupRequest) (c : Configuration) : Option GroupId :=
  match r.groupId? with
  | some raw => (GroupId.ofString raw).toOption
  | none => r.serviceId?.bind (configuredId? (r.addresses c).2)

/-- What is read of the request is the group id that is known. -/
theorem id?_of_seed {r : GroupRequest} {c : Configuration} {seed : Seed}
    (h : (r.seed (r.addresses c).2).1 = .ok seed) : seed.id? = r.knownId? c := by
  unfold GroupRequest.seed at h
  unfold knownId?
  cases hraw : r.groupId? with
  | some raw =>
    rw [hraw] at h
    cases hid : GroupId.ofString raw with
    | error e => simp [hid] at h
    | ok id =>
      obtain rfl : Seed.explicit id = seed := by simpa [hid] using h
      simp [Seed.id?, hid, Except.toOption]
  | none =>
    rw [hraw] at h
    cases hservice : r.serviceId? with
    | none =>
      obtain rfl : Seed.fallback = seed := by simpa [hservice] using h
      rfl
    | some service =>
      simp only [hservice, serviceSeed] at h
      rw [Option.bind_some, configuredId?]
      dsimp only
      generalize ((r.addresses c).2.afterTemplateKey .serviceGroupId service).get _ = value at h ⊢
      cases value with
      | error e =>
        cases e with
        | endless name => cases h
        | _ =>
          obtain rfl : Seed.fallback = seed := by simpa using h
          rfl
      | ok raw =>
        cases hid : GroupId.ofString raw with
        | error e =>
          obtain rfl : Seed.fallback = seed := by simpa [hid] using h
          simp [Seed.id?, Except.toOption, hid]
        | ok id =>
          obtain rfl : Seed.configured id = seed := by simpa [hid] using h
          simp [Seed.id?, Except.toOption, hid]

end GroupRequest

namespace Resolution

variable {conf : Configuration} {request : GroupRequest} {seed : Seed} {candidates : Group}

/-- The candidates of a request that can be read are the peers at the listed addresses, each
once. -/
theorem planned (h : plan conf request = .ok (seed, candidates)) :
    ∃ addresses, (request.addresses conf).1 = .ok addresses ∧
      candidates.peers = addresses.eraseDups.map Peer.ofAddress ∧ candidates.peers ≠ [] ∧
      seed.id? = request.knownId? conf := by
  unfold plan at h
  cases haddresses : (request.addresses conf).1 with
  | error e => simp [haddresses, bind, Except.bind] at h
  | ok addresses =>
    cases hseed : (request.seed (request.addresses conf).2).1 with
    | error e => simp [haddresses, hseed, bind, Except.bind] at h
    | ok seed' =>
      simp only [haddresses, hseed, bind, Except.bind, seeded] at h
      split at h
      · cases h
      · rename_i hempty
        obtain ⟨rfl, rfl⟩ := Prod.mk.inj (Except.ok.inj h)
        refine ⟨addresses, rfl, peers_candidateGroup seed' addresses, ?_,
          GroupRequest.id?_of_seed hseed⟩
        rintro hnil
        exact hempty (by rw [Group.isEmpty, hnil]; rfl)

/-! ### Discipline -/

/-- Whom a resolution asks, and how it takes the answers. -/
structure Disciplined (addresses : List PeerAddress) (known? : Option GroupId) (candidates : Group)
    (reply : Except RpcFailure Unit) (listing informing : List Turn)
    (r : Except AdminError ResolvedGroup) : Prop where
  /-- The candidates are the peers at the listed addresses, each once. -/
  peers : candidates.peers = addresses.eraseDups.map Peer.ofAddress
  /-- They are asked for groups if no id is known, and then about the group: in order, and up to the
  first answer that is taken. -/
  asking : Asking candidates known? reply listing informing r
  /-- Nobody is asked for groups if the id is known. -/
  unasked : known? ≠ none → listing = []
  /-- No question is put twice to anybody. -/
  once : ((listing ++ informing).map Turn.action).Nodup
  /-- An answer that names groups is taken, whatever was answered before. -/
  listed : ∀ x ∈ listing, ∀ ids, x.groups? = some ids →
    (∃ id, ids = [id] ∧ Chosen candidates known? listing id) ∨ r = .error (.ambiguousGroup ids)
  /-- An answer that tells members is taken, whatever was answered before. -/
  informed : ∀ x ∈ informing, ∀ info, x.info? = some info →
    ∃ id, Chosen candidates known? listing id ∧ r = .ok (assemble candidates id info)
  /-- That nobody is reachable is the error if one of the questions was put to all candidates and no
  answer was taken, and only then; it lists all of them. -/
  unreachable : ∀ inquiry tried, r = .error (.noReachablePeer inquiry tried) ↔
    tried = addresses.eraseDups.map PeerAddress.text ∧
      (inquiry = Inquiry.listGroups.text ∧ Unlisted candidates listing ∨
        inquiry = Inquiry.groupInfo.text ∧ Uninformed candidates informing)

/-- **A resolution calls the candidates in order.** Whatever is replied, it makes no call if its
request cannot be read. Otherwise it connects once, asks the candidates for groups unless the id is
known, then about the group, each in order and each once, and takes the first answer there is; and
it fails for want of an answer exactly if all candidates were asked in vain. -/
theorem resolve_disciplined {σ : Type} (w : Script.World σ) (conf : Configuration)
    (request : GroupRequest) (s : σ) :
    let xs := Turn.calls ((resolve conf request).run.turns w s)
    let r := ((resolve conf request).run.run w s).1
    xs.countP (fun x => x.action.connects) ≤ 1 ∧
      ((∃ e, plan conf request = .error e ∧ e.Malformed ∧ r = .error e ∧ xs = []) ∨
        ∃ addresses candidates reply listing informing,
          (request.addresses conf).1 = .ok addresses ∧
          xs = ⟨.connect candidates, reply⟩ :: (listing ++ informing) ∧
          Disciplined addresses (request.knownId? conf) candidates reply listing informing r) := by
  intro xs r
  have hpath : Path (resolve conf request).run ((resolve conf request).run.turns w s) r :=
    Script.path_run w _ s
  rcases asking_of_resolve hpath with
    ⟨e, hplan, hr, hxs⟩ | ⟨seed, candidates, reply, listing, informing, hplan, hxs, hasking⟩
  · have hxs : xs = [] := hxs
    exact ⟨by simp [hxs], .inl ⟨e, hplan, malformed_of_plan hplan, hr, hxs⟩⟩
  obtain ⟨addresses, haddresses, hcandidates, hne, hknown⟩ := planned hplan
  have hxs : xs = ⟨.connect candidates, reply⟩ :: (listing ++ informing) := hxs
  have htexts : candidates.peers.map (fun p => p.address.text)
      = addresses.eraseDups.map PeerAddress.text := by
    rw [hcandidates, List.map_map]
    rfl
  rw [hknown] at hasking
  refine ⟨?_, .inr ⟨addresses, candidates, reply, listing, informing, haddresses, hxs, ?_⟩⟩
  · rw [hxs, List.countP_cons, hasking.countP_connects]
    exact Nat.le_refl 1
  · exact {
      peers := hcandidates
      asking := hasking
      unasked := hasking.listing_eq_nil
      once := hasking.once
      listed := fun x hx ids => hasking.chosen_of_groups hx
      informed := fun x hx info => hasking.ok_of_info hx
      unreachable := fun inquiry tried => htexts ▸ hasking.noReachablePeer_iff hne inquiry tried }

end Resolution

end RaftAdmin
