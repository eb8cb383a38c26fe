import RaftAdmin.Proofs.Command.Outcome
import RaftAdmin.Proofs.Resolution.Discipline

/-!
# Contacts

A command connects to the members of its group, and to the peers of its request that are no members.
Members may have any ids, while contacts have those derived from their addresses, and a connection
knows its peers by their ids: of two peers with one id it would keep only the first.

## The model

`ResolvedGroup.Covers` says how a resolved group and its contacts account for some addresses. That
no contact has the id of a member is part of it: an address from which the id of a member is derived
denotes this member, and is no contact's.

## What is proved

* `covers_of_contacts` — contacts that are filtered by what their addresses denote account for all
  addresses.
* `joins_of_doing` — an errand connects to the members and contacts, and to nobody else.
* **`resolve_covers`** — the connection that follows a resolution is to everybody who was asked for
  and to every member, each once.
-/

namespace RaftAdmin

open Script (Path)

variable {r : ResolvedGroup} {addresses : List PeerAddress} {xs : List Turn}

/-! ### Members and contacts -/

/-- Members and contacts account for some addresses, and for each once. -/
structure ResolvedGroup.Covers (r : ResolvedGroup) (addresses : List PeerAddress) : Prop where
  /-- An address denotes a member, or one contact has it, but never both. -/
  once : ∀ a ∈ addresses,
    (r.group.peerAt? a).isSome ∧ a ∉ r.contacts.map Peer.address ∨
      r.group.peerAt? a = none ∧ (r.contacts.map Peer.address).count a = 1
  /-- Contacts are at the addresses that denote no member, in order. -/
  order : r.contacts.map Peer.address
    = addresses.eraseDups.filter fun a => (r.group.peerAt? a).isNone
  /-- No two contacts have the same address. -/
  nodup : (r.contacts.map Peer.address).Nodup
  /-- No two members or contacts have the same id. -/
  distinct : r.contactPeers.Pairwise fun p q => p.id ≠ q.id
  /-- The group to connect to has the id of the resolved group. -/
  id : r.contactGroup.id = r.group.id
  /-- Its peers are the members and behind them the contacts. -/
  peers : r.contactGroup.peers = r.group.peers ++ r.contacts

/-- Peers that are made from addresses, and have different ids, are at different addresses. -/
theorem nodup_address {ps : List Peer} (hps : ∀ p ∈ ps, p = .ofAddress p.address)
    (h : ps.Pairwise fun p q => p.id ≠ q.id) : (ps.map Peer.address).Nodup := by
  refine List.pairwise_map.mpr (h.imp_of_mem fun {p q} hp hq hid haddress => hid ?_)
  rw [hps p hp, hps q hq, haddress]

/-- A member is denoted by the address from which its id is derived. -/
theorem Group.peerAt?_isSome {g : Group} {m : Peer} {a : PeerAddress} (hm : m ∈ g.peers)
    (hid : m.id = .ofAddress a) : (g.peerAt? a).isSome := by
  rw [Group.peerAt?, List.find?_isSome]
  exact ⟨m, hm, by simp [hid]⟩

/-- Contacts at the addresses that denote no member account for all addresses. -/
theorem covers_of_contacts (h : r.contacts = (addresses.eraseDups.map Peer.ofAddress).filter
      fun p => (r.group.peerAt? p.address).isNone) : r.Covers addresses := by
  have hmem : ∀ p ∈ r.contacts, p = .ofAddress p.address ∧ r.group.peerAt? p.address = none := by
    intro p hp
    rw [h] at hp
    obtain ⟨hp, hnone⟩ := List.mem_filter.mp hp
    obtain ⟨a, -, rfl⟩ := List.mem_map.mp hp
    exact ⟨rfl, Option.isNone_iff_eq_none.mp hnone⟩
  have horder : r.contacts.map Peer.address
      = addresses.eraseDups.filter fun a => (r.group.peerAt? a).isNone := by
    rw [h, List.filter_map, List.map_map]
    exact List.map_id _
  have hcontacts : r.contacts.Pairwise fun p q => p.id ≠ q.id := by
    rw [h, ← firstById_map_ofAddress]
    exact (pairwise_firstById _).filter _
  have hnodup := nodup_address (fun p hp => (hmem p hp).1) hcontacts
  have hdistinct : r.contactPeers.Pairwise fun p q => p.id ≠ q.id := by
    refine List.pairwise_append.mpr ⟨r.group.distinct, hcontacts, fun m hm p hp hid => ?_⟩
    -- the address of a contact with the id of a member would denote this member
    obtain ⟨hself, hnone⟩ := hmem p hp
    have hderived : m.id = .ofAddress p.address := hid.trans (congrArg Peer.id hself)
    simpa [hnone] using Group.peerAt?_isSome hm hderived
  refine ⟨fun a ha => ?_, horder, hnodup, hdistinct, rfl, firstById_eq_self hdistinct⟩
  cases hdenotes : r.group.peerAt? a with
  | some m => exact .inl ⟨rfl, by simp [horder, hdenotes]⟩
  | none =>
    refine .inr ⟨rfl, List.count_eq_one_of_mem hnodup ?_⟩
    simp [horder, hdenotes, ha]

/-- What is put together after a resolution accounts for the addresses of its request. -/
theorem covers_of_path {conf : Configuration} {request : GroupRequest}
    (h : Path (Resolution.resolve conf request).run xs (.ok r)) :
    ∃ addresses, (request.addresses conf).1 = .ok addresses ∧ r.Covers addresses := by
  rcases Resolution.path_resolve h with ⟨_, -, he⟩ |
    ⟨seed, candidates, hplan, ⟨_, -, he⟩ | ⟨ys, found, -, -, hok⟩⟩
  · cases he
  · cases he
  · obtain ⟨addresses, haddresses, hcandidates, -, -⟩ := Resolution.planned hplan
    refine ⟨addresses, haddresses, covers_of_contacts ?_⟩
    match found, hok with
    | .ok (id, info), hok =>
      obtain rfl := Except.ok.inj hok
      rw [← hcandidates]
      rfl

/-! ### Connecting to them -/

/-- Whether a turn opens no connection, or one to this group. -/
def Turn.Joins (group : Group) (x : Turn) : Prop :=
  x.action.connects = true → x.action = .connect group

theorem Turn.joins_of_speaks {group : Group} {x : Turn} (h : x.action.Speaks) : x.Joins group := by
  obtain ⟨action, reply⟩ := x
  cases action with
  | connect asked => exact h.elim
  | _ => exact nofun

theorem Turn.joins_of_reporting {command : Command} {code : Int} {result : Except AdminError Int}
    (h : Reporting command result xs code) (group : Group) : ∀ x ∈ xs, x.Joins group := by
  cases h with
  | finished code => simp
  | failed e written => simp [Turn.Joins, Turn.line, Action.connects]

theorem joins_of_connected {group : Group} {body : List Turn → Except AdminError Int → Prop}
    {result : Except AdminError Int} (hbody : ∀ ys q, body ys q → ∀ y ∈ ys, y.Joins group)
    (h : Connected group body xs result) : ∀ x ∈ xs, x.Joins group := by
  rcases h with ⟨failure, rfl, -⟩ | ⟨ys, hys, rfl⟩
  · exact List.forall_mem_singleton.mpr fun _ => rfl
  · refine List.forall_mem_append.mpr ⟨List.forall_mem_cons.mpr ⟨fun _ => rfl, ?_⟩, ?_⟩
    · exact hbody ys _ hys
    · exact List.forall_mem_singleton.mpr nofun

variable {result : Except AdminError Int}

theorem joins_of_submitting {peers : List Peer} {context : String}
    (h : Submitting r peers context xs result) : ∀ x ∈ xs, x.Joins r.contactGroup := by
  cases h <;> simp [Turn.Joins, Turn.line, rejectionLine, Action.connects]

theorem joins_of_handingOver {member : Peer} {settle timeout : Nat}
    (h : HandingOver r member settle timeout xs result) : ∀ x ∈ xs, x.Joins r.contactGroup := by
  cases h with
  | asked reply hreply htransferring =>
    obtain ⟨answer, ws, rfl, hws⟩ := transferring_asks htransferring
    have hjoins : ∀ w ∈ ws, w.Joins r.contactGroup := fun w hw => Turn.joins_of_speaks (hws w hw)
    simpa [Turn.Joins, Turn.line, preferenceLine, transferLine, Action.connects] using hjoins
  | _ => simp [Turn.Joins, Turn.line, preferenceLine, transferLine, rejectionLine, Action.connects]

theorem joins_of_telling (h : Telling r xs result) : ∀ x ∈ xs, x.Joins r.contactGroup := by
  cases h with
  | told hpeers info hreply hwriting =>
    refine List.forall_mem_cons.mpr ⟨nofun, fun x hx => ?_⟩
    exact Turn.joins_of_speaks (speaks_of_writing hwriting x hx)
  | _ => simp [Turn.Joins, Turn.line, rejectionLine, Action.connects]

/-- An errand connects to the members and contacts, and to nobody else. -/
theorem joins_of_doing {errand : Errand} (h : Doing r errand xs result) :
    ∀ x ∈ xs, x.Joins r.contactGroup := by
  cases h with
  | unshown cause => exact List.forall_mem_singleton.mpr nofun
  | inspect hconnected =>
    refine List.forall_mem_cons.mpr ⟨nofun, ?_⟩
    exact joins_of_connected (fun _ _ => joins_of_telling) hconnected
  | stranger target settle timeout hnone => simp
  | lead target settle timeout hmember hconnected =>
    exact joins_of_connected (fun _ _ => joins_of_handingOver) hconnected
  | submit errand context events hchanges hpeers hconnected =>
    refine List.forall_mem_append.mpr ⟨by simp [Turn.Joins, Action.connects], ?_⟩
    exact joins_of_connected (fun _ _ => joins_of_submitting) hconnected

/-! ### Commands -/

/-- **Whom a command connects to.** Whoever replies, if a resolution succeeds, then each address of
its request denotes a member of the resolved group, or is the address of one contact, and never
both. Contacts keep the order of the request, and none is repeated. Members and contacts have
distinct ids, so that the group to connect to has the members and behind them the contacts, all of
them. This is the group that a command connects to, once its own group is resolved. -/
theorem resolve_covers {σ : Type} (w : Script.World σ) (s : σ) (conf : Configuration) :
    (∀ request r, ((Resolution.resolve conf request).run.run w s).1 = .ok r →
      ∃ addresses, (request.addresses conf).1 = .ok addresses ∧ r.Covers addresses) ∧
    ∀ command : Command, ∀ errand r zs,
      command.Resolves conf ((Shell.execute conf command).turns w s) errand r zs →
        (∃ addresses, (command.group.addresses (command.task.configured conf)).1 = .ok addresses ∧
          r.Covers addresses) ∧
        ∀ group reply, ⟨.connect group, reply⟩ ∈ zs →
          group.id = r.group.id ∧ group.peers = r.group.peers ++ r.contacts := by
  refine ⟨fun request r hr => covers_of_path (hr ▸ Script.path_run w _ s), ?_⟩
  intro command errand r zs hresolves
  obtain ⟨us, result, tail, hdoing, hreporting, rfl⟩ :=
    doing_of_resolves (Script.path_run w _ s) hresolves
  obtain ⟨_, ys, -, hresolve, -⟩ := hresolves
  obtain ⟨addresses, haddresses, hcovers⟩ := covers_of_path hresolve
  refine ⟨⟨addresses, haddresses, hcovers⟩, fun group reply hturn => ?_⟩
  obtain rfl : group = r.contactGroup := by
    rcases List.mem_append.mp hturn with hmem | hmem
    · simpa using joins_of_doing hdoing _ hmem rfl
    · simpa using Turn.joins_of_reporting hreporting r.contactGroup _ hmem rfl
  exact ⟨hcovers.id, hcovers.peers⟩

/-- A group whose first member has the id that is derived from another address. -/
def renamed : Group :=
  .of .bootstrap [⟨⟨"h9_9870"⟩, ⟨"h1", 9870⟩, 0⟩, .ofAddress ⟨"h2", 9870⟩]

/-- A session over a cluster with this group. -/
def renamedSession : Session Cluster := .start (Cluster.empty.addGroup renamed none) .empty none

/-- A request for it that names its first member twice, and two peers that are no members. -/
def renamedRequest : GroupRequest :=
  ⟨some "h4:9870,h1:9870,h9:9870,h3:9870,h4:9870", none, none⟩

/-- What is found for this request. -/
def renamedFound : Except AdminError ResolvedGroup :=
  ((Resolution.resolve .empty renamedRequest).run.run Cluster.world renamedSession).1

/-- What is said when this group is shown. -/
def renamedTurns : List Turn :=
  (Shell.execute .empty ⟨.info, renamedRequest⟩).turns Cluster.world renamedSession

/-- The peers that are no members are contacts, and each is connected to once. -/
theorem resolve_covers_renamed :
    (∃ r, renamedFound = .ok r ∧
      r.Covers [⟨"h4", 9870⟩, ⟨"h1", 9870⟩, ⟨"h9", 9870⟩, ⟨"h3", 9870⟩, ⟨"h4", 9870⟩] ∧
      r.contactGroup.peers.map (·.id.text) = ["h9_9870", "h2_9870", "h4_9870", "h3_9870"]) ∧
    ∃ errand r zs, Command.Resolves ⟨.info, renamedRequest⟩ .empty renamedTurns errand r zs ∧
      ∀ group reply, ⟨.connect group, reply⟩ ∈ zs →
        group.id = r.group.id ∧ group.peers = r.group.peers ++ r.contacts := by
  obtain ⟨hresolved, hconnects⟩ := resolve_covers Cluster.world renamedSession .empty
  constructor
  · have hids : renamedFound.toOption.map (fun r => r.contactGroup.peers.map (·.id.text))
        = some ["h9_9870", "h2_9870", "h4_9870", "h3_9870"] := by
      decide +kernel
    cases hr : renamedFound with
    | error e =>
      rw [hr] at hids
      cases hids
    | ok r =>
      rw [hr] at hids
      obtain ⟨addresses, haddresses, hcovers⟩ := hresolved renamedRequest r hr
      obtain rfl := Except.ok.inj haddresses
      exact ⟨r, rfl, hcovers, Option.some.inj hids⟩
  · have hcode : ((Shell.execute .empty ⟨.info, renamedRequest⟩).run Cluster.world
        renamedSession).1 = exitOk := by
      decide +kernel
    obtain ⟨errand, r, zs, hresolves⟩ :=
      exists_resolves_of_exitOk (hcode ▸ Script.path_run Cluster.world _ renamedSession)
    exact ⟨errand, r, zs, hresolves, (hconnects _ errand r zs hresolves).2⟩

end RaftAdmin
