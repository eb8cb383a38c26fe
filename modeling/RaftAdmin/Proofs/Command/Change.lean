import RaftAdmin.Proofs.Command.Outcome

/-!
# What a command for members comes to

Over a cluster, and with a stream that never breaks, nothing about a command that adds peers,
removes peers or sets priorities is left to chance: its exit code and the groups that it leaves are
a matter of its values, of the group that its request finds, and of whether the cluster rejects
configurations.

## The model

Values that can be read say how to change a list of members (`ListOption.change`). What a request
finds in a cluster is looked up in its groups (`Cluster.located`), as a resolution comes to it.

## What is proved

* `change_append` — to change members by two lists of values is to change them by the first and then
  by the second.
* `Session.kept_of_replies` — no plan changes who can be reached, what is rejected, or whether the
  stream breaks.
* **`execute_change`** — when a command for members succeeds, and what it then leaves.
-/

namespace RaftAdmin

open Script (Path Replies)

variable {conf : Configuration} {request : GroupRequest} {option : ListOption}
  {values as bs : List String}

/-! ### Changing a list of members -/

/-- What an errand for members makes of them; the other errands leave them. -/
def Errand.change : Errand → List Peer → List Peer
  | .add addresses, peers => addPeers peers addresses
  | .remove addresses, peers => removePeers peers addresses
  | .rank pairs, peers => peers.map (prioritize pairs)
  | _, peers => peers

theorem exists_of_map {α β : Type} {read : Except AdminError α} {f : α → β} {b : β}
    (h : read.map f = .ok b) : ∃ a, read = .ok a ∧ f a = b := by
  cases read with
  | error e => cases h
  | ok a => exact ⟨a, rfl, Except.ok.inj h⟩

/-- A result that is there is no error. -/
theorem exists_ok_of_isSome {ε α : Type} {r : Except ε α} (h : r.toOption.isSome = true) :
    ∃ a, r = .ok a := by
  cases r with
  | error e => cases h
  | ok a => exact ⟨a, rfl⟩

theorem Errand.members?_eq {errand : Errand} (h : errand.ChangesMembers) (g : Group) :
    errand.members? g = some (errand.change g.peers) := by
  cases errand with
  | inspect => exact h.elim
  | lead target settle timeout => exact h.elim
  | _ => rfl

namespace ListOption

/-- The task that an option is for. -/
def task : ListOption → List String → Task
  | addPeer, values => .quorumAdd values
  | removePeer, values => .quorumRemove values
  | addressPriority, values => .setPriority values

/-- What the values of an option ask for. -/
def errand : ListOption → List String → Except AdminError Errand
  | addPeer, values => (readAddresses .addPeer values).map .add
  | removePeer, values => (readAddresses .removePeer values).map .remove
  | addressPriority, values => (readPairs values).map .rank

/-- How the values of an option change the members of a group. -/
def change (option : ListOption) (values : List String) :
    Except AdminError (List Peer → List Peer) :=
  (option.errand values).map Errand.change

theorem task_errand (option : ListOption) (values : List String) (conf : Configuration) :
    (option.task values).errand conf = Act.ofExcept (option.errand values) := by
  cases option <;> rfl

theorem task_configured (option : ListOption) (values : List String) (conf : Configuration) :
    (option.task values).configured conf = conf := by
  cases option <;> rfl

end ListOption

/-! ### Two lists of values -/

theorem readParts_eq_ok_iff {α : Type} {read : String → Except AdminError α} {parts : List String}
    {xs : List α} :
    readParts option read parts = .ok xs ↔ parts.mapM read = .ok xs ∧ xs ≠ [] := by
  unfold readParts
  cases parts.mapM read with
  | error e => simp
  | ok ys =>
    cases ys with
    | nil => simp
    | cons y ys =>
      simp only [List.isEmpty_cons, Bool.false_eq_true, if_false, Except.ok.injEq]
      exact ⟨fun h => ⟨h, h ▸ List.cons_ne_nil _ _⟩, And.left⟩

theorem readParts_append {α : Type} {read : String → Except AdminError α} {xs ys : List α}
    {ps qs : List String} (hps : readParts option read ps = .ok xs)
    (hqs : readParts option read qs = .ok ys) :
    readParts option read (ps ++ qs) = .ok (xs ++ ys) := by
  obtain ⟨hps, hne⟩ := readParts_eq_ok_iff.mp hps
  obtain ⟨hqs, -⟩ := readParts_eq_ok_iff.mp hqs
  refine readParts_eq_ok_iff.mpr ⟨?_, List.append_ne_nil_of_left_ne_nil hne ys⟩
  rw [List.mapM_append, hps, hqs]
  rfl

theorem readAddresses_append {ps qs : List PeerAddress} (hps : readAddresses option as = .ok ps)
    (hqs : readAddresses option bs = .ok qs) :
    readAddresses option (as ++ bs) = .ok (ps ++ qs) := by
  rw [readAddresses, listParts, List.flatMap_append]
  exact readParts_append hps hqs

theorem readPairs_append {ps qs : List (PeerAddress × UInt32)} (hps : readPairs as = .ok ps)
    (hqs : readPairs bs = .ok qs) : readPairs (as ++ bs) = .ok (ps ++ qs) := by
  rw [readPairs, listParts, List.flatMap_append]
  exact readParts_append hps hqs

theorem addPeers_append (peers : List Peer) (ps qs : List PeerAddress) :
    addPeers peers (ps ++ qs) = addPeers (addPeers peers ps) qs :=
  List.foldl_append

theorem removePeers_append (peers : List Peer) (ps qs : List PeerAddress) :
    removePeers peers (ps ++ qs) = removePeers (removePeers peers ps) qs := by
  rw [removePeers, removePeers, removePeers, List.filter_filter]
  refine List.filter_congr fun p _ => ?_
  simp [Bool.and_comm]

/-- The last priority for an address counts, whichever list it is in. -/
theorem prioritize_append (ps qs : List (PeerAddress × UInt32)) (p : Peer) :
    prioritize (ps ++ qs) p = prioritize qs (prioritize ps p) := by
  have haddress : (prioritize ps p).address = p.address := by
    unfold prioritize
    split <;> rfl
  have hpriority : ∀ n, (prioritize ps p).withPriority n = p.withPriority n := by
    intro n
    unfold prioritize
    split <;> rfl
  rw [prioritize, List.reverse_append, List.find?_append, prioritize, haddress]
  cases qs.reverse.find? fun pair => pair.1 = p.address with
  | none => rfl
  | some pair => exact (hpriority pair.2).symm

/-- If values are read one after the other, and count in this order, then what two lists of values ask
for is what the first and then what the second asks for. -/
theorem change_append_of_read {α : Type} {read : List String → Except AdminError (List α)}
    {ask : List α → Errand} {f g : List Peer → List Peer}
    (hread : ∀ xs ys, read as = .ok xs → read bs = .ok ys → read (as ++ bs) = .ok (xs ++ ys))
    (hask : ∀ xs ys peers, (ask (xs ++ ys)).change peers = (ask ys).change ((ask xs).change peers))
    (hf : ((read as).map ask).map Errand.change = .ok f)
    (hg : ((read bs).map ask).map Errand.change = .ok g) :
    ((read (as ++ bs)).map ask).map Errand.change = .ok (g ∘ f) := by
  obtain ⟨_, hmap, rfl⟩ := exists_of_map hf
  obtain ⟨xs, hxs, rfl⟩ := exists_of_map hmap
  obtain ⟨_, hmap, rfl⟩ := exists_of_map hg
  obtain ⟨ys, hys, rfl⟩ := exists_of_map hmap
  rw [hread xs ys hxs hys]
  exact congrArg Except.ok (funext fun peers => hask xs ys peers)

/-- To change members by two lists of values is to change them by the first and then by the
second. -/
theorem ListOption.change_append {f g : List Peer → List Peer} (hf : option.change as = .ok f)
    (hg : option.change bs = .ok g) : option.change (as ++ bs) = .ok (g ∘ f) := by
  cases option with
  | addPeer =>
    exact change_append_of_read (fun _ _ => readAddresses_append)
      (fun ps qs peers => addPeers_append peers ps qs) hf hg
  | removePeer =>
    exact change_append_of_read (fun _ _ => readAddresses_append)
      (fun ps qs peers => removePeers_append peers ps qs) hf hg
  | addressPriority =>
    refine change_append_of_read (fun _ _ => readPairs_append) (fun ps qs peers => ?_) hf hg
    simp [Errand.change, prioritize_append]

/-! ### What stays -/

/-- Who can be reached, the exception with which configurations are rejected, and when the stream
breaks, are as before. -/
structure Session.Kept (s t : Session Cluster) : Prop where
  /-- The same peers cannot be reached. -/
  unreachable : t.cluster.unreachable = s.cluster.unreachable
  /-- Configurations are rejected as before. -/
  rejection : t.cluster.configurationRejection? = s.cluster.configurationRejection?
  /-- The stream breaks when it would have. -/
  limit : t.sink.limit? = s.sink.limit?

namespace Cluster

theorem kept_configure (c : Cluster) (id : GroupId) (peers : List Peer) :
    (c.configure id peers).state.unreachable = c.unreachable ∧
      (c.configure id peers).state.configurationRejection? = c.configurationRejection? := by
  unfold configure
  dsimp only
  split
  · exact ⟨rfl, rfl⟩
  · split
    · exact ⟨rfl, rfl⟩
    · split <;> exact ⟨rfl, rfl⟩

theorem kept_transfer (c : Cluster) (id : GroupId) (target : PeerId) (timeout : Nat) :
    (c.transfer id target timeout).state.unreachable = c.unreachable ∧
      (c.transfer id target timeout).state.configurationRejection?
        = c.configurationRejection? := by
  unfold transfer
  dsimp only
  split
  · exact ⟨rfl, rfl⟩
  · split
    · exact ⟨rfl, rfl⟩
    · split
      · exact ⟨rfl, rfl⟩
      · split <;> exact ⟨rfl, rfl⟩

end Cluster

theorem Sink.limit?_write (fragments : List String) (sink : Sink) :
    (sink.write fragments).2.limit? = sink.limit? := by
  induction fragments generalizing sink with
  | nil => rfl
  | cons f fs ih =>
    rw [write]
    split
    · exact ih sink
    · split
      · rfl
      · exact ih _

namespace Session

variable {s t u : Session Cluster}

theorem Kept.refl (s : Session Cluster) : s.Kept s := ⟨rfl, rfl, rfl⟩

theorem Kept.trans (h : s.Kept t) (h' : t.Kept u) : s.Kept u :=
  ⟨h'.unreachable.trans h.unreachable, h'.rejection.trans h.rejection, h'.limit.trans h.limit⟩

theorem kept_answer (action : Action) (s : Session Cluster) :
    s.Kept (answer Cluster.connector action s).2 := by
  cases action with
  | setConfiguration group peers =>
    obtain ⟨hunreachable, hrejection⟩ := s.cluster.kept_configure group.id peers
    exact ⟨hunreachable, hrejection, rfl⟩
  | transferLeadership group target timeout =>
    obtain ⟨hunreachable, hrejection⟩ := s.cluster.kept_transfer group.id target timeout
    exact ⟨hunreachable, hrejection, rfl⟩
  | print fragments => exact ⟨rfl, rfl, Sink.limit?_write fragments s.sink⟩
  | _ => exact ⟨rfl, rfl, rfl⟩

theorem kept_of_replies {xs : List Turn} (h : Replies Cluster.world s xs t) : s.Kept t := by
  induction h with
  | nil s => exact .refl s
  | cons action _ ih => exact (kept_answer action _).trans ih

end Session

/-! ### Submitting over a cluster -/

namespace Cluster

variable {c : Cluster}

/-- What a request finds in a cluster. -/
def located (c : Cluster) (conf : Configuration) (request : GroupRequest) :
    Except AdminError ResolvedGroup :=
  (Resolution.plan conf request).bind fun (seed, candidates) => c.resolved seed candidates

/-- A group is resolved because a candidate can be reached and is a member. -/
theorem exists_serves_of_resolved {seed : Seed} {candidates : Group} {r : ResolvedGroup}
    (h : c.resolved seed candidates = .ok r) :
    ∃ p ∈ candidates.peers, c.serves r.group.id p = true := by
  unfold resolved informed at h
  cases hid : c.identified seed candidates with
  | error e => simp [hid, Except.bind] at h
  | ok id =>
    cases hfind : candidates.peers.find? (c.serves id) with
    | none => simp [hid, hfind, Except.bind, Except.map] at h
    | some p =>
      simp only [hid, hfind, Except.bind, Except.map, Except.ok.injEq] at h
      subst h
      exact ⟨p, List.mem_of_find?_eq_some hfind, List.find?_some hfind⟩

/-- What a request is resolved to is a group of the cluster, with a member that can be reached. -/
theorem exists_of_located {r : ResolvedGroup} (h : c.located conf request = .ok r) :
    c.group? r.group.id = some r.group ∧ ∃ p ∈ r.group.peers, c.isReachable p.id = true := by
  unfold located at h
  cases hplan : Resolution.plan conf request with
  | error e => simp [hplan, Except.bind] at h
  | ok planned =>
    rw [hplan] at h
    have hgroup := Resolution.group?_of_resolved h
    obtain ⟨p, -, hserves⟩ := exists_serves_of_resolved h
    obtain ⟨hreach, hmember⟩ := Bool.and_eq_true_iff.mp hserves
    rw [hasMember, hgroup, Option.any_some, Group.contains_iff] at hmember
    obtain ⟨m, hm, hid⟩ := List.mem_map.mp hmember
    exact ⟨hgroup, m, hm, hid ▸ hreach⟩

/-- A configuration for a group with a member that can be reached is accepted, unless all are
rejected. -/
theorem configure_eq {id : GroupId} (peers : List Peer) {g : Group}
    (hgroup : c.group? id = some g) (hreach : ∃ p ∈ g.peers, c.isReachable p.id = true) :
    (∃ reply, (c.configure id peers).result = .ok reply ∧
      (reply.success = true ↔ c.configurationRejection? = none)) ∧
    (c.configurationRejection? = none → (c.configure id peers).state.groups
      = (c.update id fun g => g.reconfigure id peers).groups) := by
  obtain ⟨state, hstate, rfl⟩ := Option.map_eq_some_iff.mp hgroup
  have hsome : ¬ (state.group.peers.all fun p => !c.isReachable p.id) = true := by
    obtain ⟨p, hp, hreach⟩ := hreach
    simp only [List.all_eq_true, not_forall]
    exact ⟨p, hp, by simp [hreach]⟩
  unfold configure
  dsimp only
  split
  · next exception hrejected =>
    have hne : c.configurationRejection? ≠ none := fun hnone => nomatch hnone.symm.trans hrejected
    refine ⟨⟨_, rfl, ?_⟩, fun hnone => absurd hnone hne⟩
    simp [ClientReply.failure, hne]
  · next hnone =>
    split
    · next hmissing => cases hstate.symm.trans hmissing
    · next g hg =>
      obtain rfl := Option.some.inj (hstate.symm.trans hg)
      split
      · next hall => exact absurd hall hsome
      · exact ⟨⟨.ok, rfl, iff_of_true rfl hnone⟩, fun _ => rfl⟩

end Cluster

/-! ### Commands for members -/

section

variable {s t : Session Cluster} {xs : List Turn} {code : Int}

/-- The command for the values of an option. -/
def ListOption.command (option : ListOption) (values : List String) (request : GroupRequest) :
    Command :=
  ⟨option.task values, request⟩

/-- A request that can be read names peers in some way. -/
theorem validate_of_plan {planned : Seed × Group} (h : Resolution.plan conf request = .ok planned) :
    (option.command values request).validate = .ok () := by
  have hnamed : request.validate = .ok () := by
    unfold GroupRequest.validate
    split
    · next hnone =>
      obtain ⟨peers?, groupId?, serviceId?⟩ := request
      simp only [Bool.and_eq_true, Option.isNone_iff_eq_none] at hnone
      obtain ⟨rfl, rfl⟩ := hnone
      cases h
    · rfl
  rw [Command.validate, ListOption.command, hnamed]
  cases option <;> rfl

/-- What the values of an option ask for is for members. -/
theorem changesMembers_of_errand {errand : Errand} (h : option.errand values = .ok errand) :
    errand.ChangesMembers := by
  cases option with
  | addPeer =>
    obtain ⟨addresses, -, rfl⟩ := exists_of_map h
    trivial
  | removePeer =>
    obtain ⟨addresses, -, rfl⟩ := exists_of_map h
    trivial
  | addressPriority =>
    obtain ⟨pairs, -, rfl⟩ := exists_of_map h
    trivial

/-- Members are submitted first, and then their fate is shown. -/
theorem reply_of_submitting {r : ResolvedGroup} {peers : List Peer} {context : String}
    {result : Except AdminError Int} (h : Submitting r peers context xs result)
    (hwritten : ∀ x ∈ xs, ¬ x.Unwritten) :
    ∃ reply vs, xs = ⟨.setConfiguration r.contactGroup peers, reply⟩ :: vs ∧
      (∀ v ∈ vs, v.action.Asks) ∧
      (result = .ok exitOk ↔ ∃ accepted, reply = .ok accepted ∧ accepted.success = true) := by
  cases h with
  | unanswered failure => exact ⟨_, [], rfl, by simp, by simp⟩
  | declined reply written hreply =>
    exact ⟨_, [_], rfl, List.forall_mem_singleton.mpr trivial, by simp [hreply]⟩
  | accepted reply written hreply =>
    obtain rfl := ok_of_line_mem hwritten (.tail _ (.head _))
    exact ⟨_, [_], rfl, List.forall_mem_singleton.mpr trivial, by simp [told, hreply]⟩

/-- A cluster refuses no connection, so an errand for members submits them. -/
theorem reply_of_doing {r : ResolvedGroup} {errand : Errand} {result : Except AdminError Int}
    (h : Doing r errand xs result) (hchanges : errand.ChangesMembers)
    (hreplies : Replies Cluster.world s xs t) (hwritten : ∀ x ∈ xs, ¬ x.Unwritten) :
    ∃ us reply vs,
      xs = us ++ ⟨.setConfiguration r.contactGroup (errand.change r.group.peers), reply⟩ :: vs ∧
      (∀ u ∈ us, u.action.Asks) ∧ (∀ v ∈ vs, v.action.Asks) ∧
      (result = .ok exitOk ↔ ∃ accepted, reply = .ok accepted ∧ accepted.success = true) := by
  obtain ⟨peers, context, ys, events, hpeers, hconnected, rfl⟩ := submitting_of_doing h hchanges
  obtain rfl := Option.some.inj ((Errand.members?_eq hchanges r.group).symm.trans hpeers)
  have hevents : ∀ x ∈ events.map (fun event => (⟨.log event, ()⟩ : Turn)), x.action.Asks := by
    simp [Action.Asks]
  rcases hconnected with ⟨failure, rfl, -⟩ | ⟨ys, hsubmitting, rfl⟩
  · obtain ⟨_, -, hrefused⟩ := Script.replies_append_iff.mp hreplies
    cases (Script.replies_cons_iff.mp hrefused).1
  · obtain ⟨reply, vs, rfl, hvs, hresult⟩ := reply_of_submitting hsubmitting
      fun x hx => hwritten x (by simp [hx])
    refine ⟨events.map (fun event => ⟨.log event, ()⟩) ++ [⟨.connect r.contactGroup, .ok ()⟩],
      reply, vs ++ [⟨.disconnect r.contactGroup, ()⟩], by simp, ?_, ?_, hresult⟩
    · exact List.forall_mem_append.mpr ⟨hevents, List.forall_mem_singleton.mpr trivial⟩
    · exact List.forall_mem_append.mpr ⟨hvs, List.forall_mem_singleton.mpr trivial⟩

/-- Over a cluster, the errand of a command is what its values ask for, and its group is what its
request finds. -/
theorem located_of_resolves {errand : Errand} {r : ResolvedGroup} {zs : List Turn}
    (h : Replies Cluster.world s xs t)
    (hresolves : (option.command values request).Resolves conf xs errand r zs) :
    option.errand values = .ok errand ∧ s.cluster.located conf request = .ok r := by
  have hfound := found_of_resolves h hresolves
  obtain ⟨us, -, herrand, -⟩ := hresolves
  simp only [ListOption.command, ListOption.task_errand, ListOption.task_configured]
    at herrand hfound
  exact ⟨(Script.path_ofExcept_iff.mp herrand).2.symm, hfound⟩

/-- Conversely, if its values can be read and its request finds a group, then it resolves it. -/
theorem resolves_of_replies {errand : Errand} {r : ResolvedGroup}
    (h : Replies Cluster.world s xs t)
    (hpath : Path (Shell.execute conf (option.command values request)) xs code)
    (herrand : option.errand values = .ok errand)
    (hlocated : s.cluster.located conf request = .ok r) :
    ∃ zs, (option.command values request).Resolves conf xs errand r zs := by
  rcases path_execute hpath with ⟨e, hrefused, -⟩ | ⟨ys, result, tail, hact, -, rfl⟩
  · unfold Cluster.located at hlocated
    cases hplan : Resolution.plan conf request with
    | error e => simp [hplan, Except.bind] at hlocated
    | ok planned => cases hrefused.symm.trans (validate_of_plan hplan)
  · obtain ⟨-, hrest⟩ := Script.replies_cons_iff.mp h
    obtain ⟨u, hys, -⟩ := Script.replies_append_iff.mp hrest
    rw [act_eq] at hact
    simp only [ListOption.command, ListOption.task_errand, ListOption.task_configured] at hact
    rcases Script.path_ofExcept_bind_iff.mp hact with ⟨e, herror, -⟩ | ⟨_, hok, hact⟩
    · cases herrand.symm.trans herror
    obtain rfl := Except.ok.inj (herrand.symm.trans hok)
    rcases Script.path_act_bind_iff.mp hact with ⟨us, r', zs, hresolve, -, rfl⟩ | ⟨e, he, rfl⟩
    · obtain ⟨v, hus, -⟩ := Script.replies_append_iff.mp hys
      obtain rfl := Except.ok.inj ((resolved_of_replies hus hresolve).trans hlocated)
      refine ⟨zs ++ tail, [], us, ?_, ?_, by simp [ListOption.command]⟩
      · rw [ListOption.command, ListOption.task_errand]
        exact Script.path_ofExcept_iff.mpr ⟨rfl, herrand.symm⟩
      · rwa [ListOption.command, ListOption.task_configured]
    · cases (resolved_of_replies hys he).trans hlocated

/-- How a command for members goes over a cluster: it fails before its group is resolved, or it
submits the members that its values ask for. -/
theorem submission_of_replies (h : Replies Cluster.world s xs t)
    (hpath : Path (Shell.execute conf (option.command values request)) xs code)
    (hwritten : ∀ x ∈ xs, ¬ x.Unwritten) :
    (code ≠ exitOk ∧ ∀ f r, option.change values = .ok f →
      s.cluster.located conf request ≠ .ok r) ∨
    ∃ f r, option.change values = .ok f ∧ s.cluster.located conf request = .ok r ∧
      ∃ us reply vs, xs = us ++ ⟨.setConfiguration r.contactGroup (f r.group.peers), reply⟩ :: vs ∧
        (∀ u ∈ us, u.action.Asks) ∧ (∀ v ∈ vs, v.action.Asks) ∧
        (code = exitOk ↔ ∃ accepted, reply = .ok accepted ∧ accepted.success = true) := by
  by_cases hresolved : ∃ errand r zs,
    (option.command values request).Resolves conf xs errand r zs
  · obtain ⟨errand, r, zs, hresolves⟩ := hresolved
    obtain ⟨herrand, hlocated⟩ := located_of_resolves h hresolves
    have hchange : option.change values = .ok errand.change := by
      rw [ListOption.change, herrand]
      rfl
    obtain ⟨ys, result, tail, hdoing, hreporting, rfl⟩ := doing_of_resolves hpath hresolves
    obtain ⟨-, us, hus, rfl, -⟩ := exists_of_resolves hresolves
    obtain ⟨u, -, hrest⟩ := Script.replies_append_iff.mp h
    obtain ⟨v, hys, -⟩ := Script.replies_append_iff.mp hrest
    obtain ⟨before, reply, after, rfl, hbefore, hafter, hresult⟩ := reply_of_doing hdoing
      (changesMembers_of_errand herrand) hys fun x hx => hwritten x (by simp [hx])
    refine .inr ⟨errand.change, r, hchange, hlocated, us ++ before, reply, after ++ tail, by simp,
      ?_, ?_, (exitOk_iff_of_reporting hreporting).trans hresult⟩
    · exact List.forall_mem_append.mpr ⟨fun u hu => (hus u hu).asks, hbefore⟩
    · exact List.forall_mem_append.mpr ⟨hafter, asks_of_reporting hreporting⟩
  · refine .inl ⟨?_, fun f r hf hlocated => ?_⟩
    · rintro rfl
      exact hresolved (exists_resolves_of_exitOk hpath)
    · obtain ⟨errand, herrand, -⟩ := exists_of_map hf
      obtain ⟨zs, hresolves⟩ := resolves_of_replies h hpath herrand hlocated
      exact hresolved ⟨errand, r, zs, hresolves⟩

/-- After questions, a configuration for the group that a request finds is accepted, unless all are
rejected. -/
theorem configure_of_located {r : ResolvedGroup} (h : Replies Cluster.world s xs t)
    (hxs : ∀ x ∈ xs, x.action.Asks) (hlocated : s.cluster.located conf request = .ok r)
    (peers : List Peer) :
    (∃ reply, (t.cluster.configure r.group.id peers).result = .ok reply ∧
      (reply.success = true ↔ s.cluster.configurationRejection? = none)) ∧
    (s.cluster.configurationRejection? = none → (t.cluster.configure r.group.id peers).state.groups
      = (s.cluster.update r.group.id fun g => g.reconfigure r.group.id peers).groups) := by
  obtain ⟨hgroups, hunreachable⟩ := (truthful_of_asks h hxs).2
  obtain ⟨hgroup, p, hp, hreach⟩ := Cluster.exists_of_located hlocated
  have hgroup' : t.cluster.group? r.group.id = some r.group := by
    rwa [Cluster.group?, Cluster.state?, hgroups]
  have hreach' : t.cluster.isReachable p.id = true := by
    rwa [Cluster.isReachable, hunreachable]
  have hconfigure := Cluster.configure_eq peers hgroup' ⟨p, hp, hreach'⟩
  rwa [(Session.kept_of_replies h).rejection, Cluster.update, hgroups] at hconfigure

/-- **What a command for members comes to.** Over a cluster, and with a stream that never breaks, it
succeeds exactly if its values can be read, its request finds a group, and configurations are not
rejected. Then the members of this group are changed as the values say, its leader stays if it is
one of them, and no other group is changed. -/
theorem execute_change (hsink : s.sink.limit? = none) (conf : Configuration)
    (request : GroupRequest) (option : ListOption) (values : List String) :
    let p := Shell.execute conf (option.command values request)
    let ended := Session.run Cluster.connector p s
    (ended.1 = exitOk ↔ (∃ f r, option.change values = .ok f ∧
      s.cluster.located conf request = .ok r) ∧ s.cluster.configurationRejection? = none) ∧
    ∀ f r, option.change values = .ok f → s.cluster.located conf request = .ok r →
      s.cluster.configurationRejection? = none →
      ended.2.cluster.groups = (s.cluster.update r.group.id fun g =>
        g.reconfigure r.group.id (f r.group.peers)).groups := by
  intro p ended
  have hreplies := Script.replies_run Cluster.world p s
  rcases submission_of_replies hreplies (Script.path_run Cluster.world p s)
      (Session.written_of_unlimited hreplies hsink) with
    ⟨hcode, hnone⟩ | ⟨f, r, hf, hr, us, reply, vs, hxs, hus, hvs, hcode⟩
  · refine ⟨iff_of_false hcode ?_, fun f r hf hr => absurd hr (hnone f r hf)⟩
    rintro ⟨⟨f, r, hf, hr⟩, -⟩
    exact hnone f r hf hr
  · rw [hxs] at hreplies
    obtain ⟨u, hbefore, hrest⟩ := Script.replies_append_iff.mp hreplies
    obtain ⟨hreply, hafter⟩ := Script.replies_cons_iff.mp hrest
    obtain ⟨⟨answer, hanswer, hsuccess⟩, hconfigured⟩ :=
      configure_of_located hbefore hus hr (f r.group.peers)
    obtain rfl : reply = .ok answer := hreply.trans hanswer
    refine ⟨?_, fun f' r' hf' hr' hnone => ?_⟩
    · constructor
      · intro hok
        obtain ⟨accepted, heq, haccepted⟩ := hcode.mp hok
        obtain rfl := Except.ok.inj heq
        exact ⟨⟨f, r, hf, hr⟩, hsuccess.mp haccepted⟩
      · rintro ⟨-, hnone⟩
        exact hcode.mpr ⟨answer, rfl, hsuccess.mpr hnone⟩
    · obtain rfl := Except.ok.inj (hf.symm.trans hf')
      obtain rfl := Except.ok.inj (hr.symm.trans hr')
      exact (truthful_of_asks hafter hvs).2.1.trans (hconfigured hnone)

end

end RaftAdmin
