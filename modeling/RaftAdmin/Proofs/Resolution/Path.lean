import RaftAdmin.Proofs.Script.Path
import RaftAdmin.Resolution.Basic

/-!
# How a resolution can go

A resolution reads the request, opens a connection to the candidates, asks them one after the other,
and puts together what it has learned. This module says, step by step, with what each of these can
end and what was said before, whoever the candidates are.

## What is proved

* `exists_path_of_firstAnswer` — a value that asking around yields comes from one of those asked.
* `firstAnswer_eq_findSome?` — if it is known what each of them says, the first value is taken.
* `path_resolve_gather` — a resolution first reads its request, which asks nobody, and then asks the
  candidates over a connection.
* `path_resolve` — a resolution ends with the fault of the request, with a refused connection, or
  with what the candidates were found to say.
-/

namespace RaftAdmin

open Script (Path Only only_perform only_logAll)

/-- Whether an action asks for no change of the cluster. -/
def Action.Asks : Action → Prop
  | .setConfiguration _ _ => False
  | .transferLeadership _ _ _ => False
  | _ => True

/-- Whether an action asks for no change, shows the operator nothing, and does not wait. -/
def Action.Inquires : Action → Prop
  | .setConfiguration _ _ => False
  | .transferLeadership _ _ _ => False
  | .print _ => False
  | .sleep _ => False
  | _ => True

theorem Action.Inquires.asks {action : Action} (h : action.Inquires) : action.Asks := by
  cases action with
  | setConfiguration group peers => exact h
  | transferLeadership group target timeout => exact h
  | _ => trivial

/-- Whether an action only tells the configuration or the log something. -/
def Action.Notes : Action → Prop
  | .learn _ => True
  | .log _ => True
  | _ => False

/-- Whether an action is a call that goes to the cluster, or opens a connection to it. -/
def Action.calls : Action → Bool
  | .connect _ => true
  | .listGroups _ _ => true
  | .groupInfo _ _ _ => true
  | .setConfiguration _ _ => true
  | .transferLeadership _ _ _ => true
  | _ => false

/-- Whether an action is an attempt to connect. -/
def Action.connects : Action → Bool
  | .connect _ => true
  | _ => false

theorem Action.Notes.not_connects {action : Action} (h : action.Notes) :
    action.connects = false := by
  cases action with
  | connect group => exact h.elim
  | _ => rfl

theorem Action.Notes.not_calls {action : Action} (h : action.Notes) : action.calls = false := by
  cases action with
  | learn registry => rfl
  | log event => rfl
  | _ => exact h.elim

/-- Whether an action asks a question over a connection to this group, or reports an event. -/
def Action.Consults (group : Group) : Action → Prop
  | .listGroups asked _ => asked = group
  | .groupInfo asked _ _ => asked = group
  | .log _ => True
  | _ => False

theorem Action.Consults.inquires {group : Group} {action : Action} (h : action.Consults group) :
    action.Inquires := by
  cases action with
  | listGroups asked peer => trivial
  | groupInfo asked peer id => trivial
  | log event => trivial
  | _ => exact h.elim

namespace Retry

variable {α β : Type} {report : LogEvent → Script Unit} {name : α → String}
  {ask : α → Script (Except RpcFailure (Option β))} {index : Nat} {cs : List α} {xs : List Turn}

theorem only_firstAnswer {P : Action → Prop} (hreport : ∀ event, (report event).Only P)
    (hask : ∀ c, (ask c).Only P) : (firstAnswer report name ask index cs).Only P := by
  induction cs generalizing index with
  | nil => exact trivial
  | cons c cs ih =>
    refine (hask c).bind fun answer => ?_
    match answer with
    | .ok (some b) => exact trivial
    | .ok none => exact (hreport _).bind fun _ => ih
    | .error failure => exact (hreport _).bind fun _ => ih

/-- The paths of asking one candidate and those after it. -/
theorem path_firstAnswer_cons {c : α} {v : Option β}
    (h : Path (firstAnswer report name ask index (c :: cs)) xs v) :
    ∃ ys answer zs, Path (ask c) ys answer ∧ xs = ys ++ zs ∧
      ((∃ b, answer = .ok (some b) ∧ v = some b ∧ zs = []) ∨
        answer.toOption.join = none ∧ ∃ event us ws, Path (report event) us () ∧
          Path (firstAnswer report name ask (index + 1) cs) ws v ∧ zs = us ++ ws) := by
  obtain ⟨ys, answer, zs, hask, hrest, rfl⟩ := Script.path_bind_iff.mp h
  refine ⟨ys, answer, zs, hask, rfl, ?_⟩
  match answer, hrest with
  | .ok (some b), hrest =>
    obtain ⟨rfl, rfl⟩ := Script.path_pure_iff.mp hrest
    exact .inl ⟨b, rfl, rfl, rfl⟩
  | .ok none, hrest =>
    obtain ⟨us, _, ws, hus, hws, rfl⟩ := Script.path_bind_iff.mp hrest
    exact .inr ⟨rfl, _, us, ws, hus, hws, rfl⟩
  | .error failure, hrest =>
    obtain ⟨us, _, ws, hus, hws, rfl⟩ := Script.path_bind_iff.mp hrest
    exact .inr ⟨rfl, _, us, ws, hus, hws, rfl⟩

/-- A value that asking around yields comes from one of those asked. -/
theorem exists_path_of_firstAnswer {b : β}
    (h : Path (firstAnswer report name ask index cs) xs (some b)) :
    ∃ c ∈ cs, ∃ ys, Path (ask c) ys (.ok (some b)) ∧ ys ⊆ xs := by
  induction cs generalizing index xs with
  | nil => exact absurd (Script.path_pure_iff.mp h).2 (by simp)
  | cons c cs ih =>
    obtain ⟨ys, answer, zs, hask, rfl, ⟨b', rfl, hb, -⟩ | ⟨-, _, us, ws, -, hws, rfl⟩⟩ :=
      path_firstAnswer_cons h
    · obtain rfl := Option.some.inj hb
      exact ⟨c, List.mem_cons_self, ys, hask, List.subset_append_left _ _⟩
    · obtain ⟨d, hd, vs, hvs, hsub⟩ := ih hws
      exact ⟨d, List.mem_cons_of_mem _ hd, vs, hvs, fun v hv => by simp [hsub hv]⟩

/-- If it is known what each of those asked says in such conversations, the first value is taken. -/
theorem firstAnswer_eq_findSome? {P : Turn → Prop} {said : α → Option β} {v : Option β}
    (hask : ∀ c ∈ cs, ∀ ys answer, Path (ask c) ys answer → (∀ y ∈ ys, P y) →
      answer.toOption.join = said c)
    (h : Path (firstAnswer report name ask index cs) xs v) (hxs : ∀ x ∈ xs, P x) :
    v = cs.findSome? said := by
  induction cs generalizing index xs with
  | nil => exact (Script.path_pure_iff.mp h).2
  | cons c cs ih =>
    obtain ⟨ys, answer, zs, hc, rfl, hanswer⟩ := path_firstAnswer_cons h
    have hsays := hask c List.mem_cons_self ys answer hc
      fun y hy => hxs y (List.mem_append_left _ hy)
    rcases hanswer with ⟨b, rfl, rfl, -⟩ | ⟨hnone, _, us, ws, -, hws, rfl⟩
    · rw [List.findSome?_cons, ← hsays]
      rfl
    · rw [List.findSome?_cons, ← hsays, hnone]
      exact ih (fun d hd => hask d (List.mem_cons_of_mem _ hd)) hws
        fun w hw => hxs w (by simp [hw])

end Retry

namespace Resolution

variable {candidates : Group} {xs : List Turn}

/-! ### One candidate -/

theorem path_askGroups {p : Peer} {answer : Except RpcFailure (Option (List GroupId))}
    (h : Path (askGroups candidates p) xs answer) :
    ∃ reply, xs = [⟨.listGroups candidates p, reply⟩] ∧
      answer = reply.map fun ids => if ids.isEmpty then none else some ids := by
  obtain ⟨ys, reply, zs, hy, hz, rfl⟩ := Script.path_bind_iff.mp h
  obtain rfl := Script.path_call_iff.mp hy
  match reply, hz with
  | .ok ids, hz =>
    obtain ⟨rfl, rfl⟩ := Script.path_pure_iff.mp hz
    exact ⟨_, rfl, rfl⟩
  | .error failure, hz =>
    obtain ⟨rfl, rfl⟩ := Script.path_pure_iff.mp hz
    exact ⟨_, rfl, rfl⟩

theorem path_askInfo {id : GroupId} {p : Peer} {answer : Except RpcFailure (Option GroupInfoReply)}
    (h : Path (askInfo candidates id p) xs answer) :
    ∃ reply us, xs = ⟨.groupInfo candidates p id, reply⟩ :: us ∧ (∀ u ∈ us, u.action.Notes) ∧
      answer = reply.map fun info =>
        if info.reply.success && !info.group.isEmpty then some info else none := by
  obtain ⟨ys, reply, zs, hy, hz, rfl⟩ := Script.path_bind_iff.mp h
  obtain rfl := Script.path_call_iff.mp hy
  refine ⟨reply, zs, rfl, ?_⟩
  match reply, hz with
  | .error failure, hz =>
    obtain ⟨rfl, rfl⟩ := Script.path_pure_iff.mp hz
    exact ⟨by simp, rfl⟩
  | .ok info, hz =>
    dsimp only at hz
    cases hsuccess : info.reply.success with
    | true =>
      rw [hsuccess, if_pos rfl] at hz
      obtain ⟨rfl, rfl⟩ := Script.path_pure_iff.mp hz
      cases hempty : info.group.isEmpty <;> simp [Except.map, hsuccess, hempty]
    | false =>
      rw [hsuccess, if_neg (by simp)] at hz
      obtain ⟨us, _, ws, hus, hws, rfl⟩ := Script.path_bind_iff.mp hz
      obtain rfl := Script.path_call_iff.mp hus
      obtain ⟨rfl, rfl⟩ := Script.path_pure_iff.mp hws
      simp [Except.map, hsuccess, Action.Notes]

/-! ### All candidates -/

theorem path_askAll {β : Type} {inquiry : Inquiry}
    {ask : Peer → Script (Except RpcFailure (Option β))} {r : Except AdminError β}
    (h : Path (askAll candidates inquiry ask).run xs r) :
    ∃ found, Path (Retry.firstAnswer (fun e => Script.call (.log e)) Peer.text ask 0
        candidates.peers) xs found ∧
      r = found.elim (.error (noReachablePeer inquiry candidates)) .ok := by
  obtain ⟨ys, found, zs, hy, hz, rfl⟩ := Script.path_lift_bind_iff.mp h
  refine ⟨found, ?_⟩
  cases found with
  | some value =>
    obtain ⟨rfl, rfl⟩ := Script.path_act_pure_iff.mp hz
    exact ⟨by simpa using hy, rfl⟩
  | none =>
    obtain ⟨rfl, rfl⟩ := Script.path_throw_iff.mp hz
    exact ⟨by simpa using hy, rfl⟩

/-- The group id in a list of group ids, which may hold no other. -/
def sole : List GroupId → Except AdminError GroupId
  | [id] => .ok id
  | ids => .error (.ambiguousGroup ids)

theorem path_discover {r : Except AdminError GroupId} (h : Path (discover candidates).run xs r) :
    ∃ ys us found, Path (askAll candidates .listGroups (askGroups candidates)).run ys found ∧
      (∀ u ∈ us, u.action.Notes) ∧ xs = ys ++ us ∧ r = found.bind sole := by
  rcases Script.path_act_bind_iff.mp h with ⟨ys, ids, zs, hy, hz, rfl⟩ | ⟨e, hx, rfl⟩
  · have hends : (∀ z ∈ zs, z.action.Notes) ∧ r = sole ids := by
      match ids, hz with
      | [id], hz =>
        obtain ⟨_, ws, hws, rfl⟩ := Script.path_perform_bind_iff.mp hz
        obtain ⟨rfl, rfl⟩ := Script.path_act_pure_iff.mp hws
        exact ⟨List.forall_mem_singleton.mpr trivial, rfl⟩
      | [], hz =>
        obtain ⟨rfl, rfl⟩ := Script.path_throw_iff.mp hz
        exact ⟨by simp, rfl⟩
      | _ :: _ :: _, hz =>
        obtain ⟨rfl, rfl⟩ := Script.path_throw_iff.mp hz
        exact ⟨by simp, rfl⟩
    exact ⟨ys, zs, .ok ids, hy, hends.1, rfl, hends.2⟩
  · exact ⟨xs, [], .error e, hx, by simp, by simp, rfl⟩

/-! ### A group -/

variable {seed : Seed}

/-- The candidates are asked about a group that was known, or that they were found to belong to. -/
theorem path_inquire {r : Except AdminError (GroupId × GroupInfoReply)}
    (h : Path (inquire candidates seed).run xs r) :
    (∃ e, seed.id? = none ∧ Path (discover candidates).run xs (.error e) ∧ r = .error e) ∨
      ∃ id ys zs found,
        (seed.id? = some id ∧ ys = [] ∨
          seed.id? = none ∧ Path (discover candidates).run ys (.ok id)) ∧
        Path (fetchInfo candidates id).run zs found ∧ xs = ys ++ zs ∧
        r = found.map fun info => (id, info) := by
  have hfetched : ∀ {id : GroupId} {zs : List Turn}
      {r : Except AdminError (GroupId × GroupInfoReply)},
      Path (do let info ← fetchInfo candidates id; pure (id, info) : Act _).run zs r →
        ∃ found, Path (fetchInfo candidates id).run zs found ∧
          r = found.map fun info => (id, info) := by
    intro id zs r h
    rcases Script.path_act_bind_iff.mp h with ⟨us, info, vs, hu, hv, rfl⟩ | ⟨e, he, rfl⟩
    · obtain ⟨rfl, rfl⟩ := Script.path_act_pure_iff.mp hv
      exact ⟨.ok info, by simpa using hu, rfl⟩
    · exact ⟨.error e, he, rfl⟩
  unfold inquire at h
  cases hid : seed.id? with
  | some id =>
    simp only [hid] at h
    rcases Script.path_act_bind_iff.mp h with ⟨ys, id', zs, hy, hz, rfl⟩ | ⟨e, he, -⟩
    · obtain ⟨rfl, hid'⟩ := Script.path_act_pure_iff.mp hy
      obtain rfl := Except.ok.inj hid'
      obtain ⟨found, hfound, rfl⟩ := hfetched hz
      exact .inr ⟨id', [], zs, found, .inl ⟨rfl, rfl⟩, hfound, rfl, rfl⟩
    · exact absurd (Script.path_act_pure_iff.mp he).2 (by simp)
  | none =>
    simp only [hid] at h
    rcases Script.path_act_bind_iff.mp h with ⟨ys, id, zs, hy, hz, rfl⟩ | ⟨e, he, rfl⟩
    · obtain ⟨found, hfound, rfl⟩ := hfetched hz
      exact .inr ⟨id, ys, zs, found, .inr ⟨rfl, hy⟩, hfound, rfl, rfl⟩
    · exact .inl ⟨e, rfl, he, rfl⟩

/-- The group id that is known, and the candidates at some addresses. -/
def seeded (seed : Seed) (addresses : List PeerAddress) : Except AdminError (Seed × Group) :=
  if (candidateGroup seed addresses).isEmpty then .error GroupRequest.noAddress
  else .ok (seed, candidateGroup seed addresses)

/-- What a request comes to before anyone is asked. -/
def plan (c : Configuration) (request : GroupRequest) : Except AdminError (Seed × Group) := do
  let addresses ← (request.addresses c).1
  let seed ← (request.seed (request.addresses c).2).1
  seeded seed addresses

/-- Asks the candidates, and puts together what they say. -/
def gather (candidates : Group) (seed : Seed) : Act ResolvedGroup := do
  let (id, info) ← Act.connected candidates (inquire candidates seed)
  let resolved := assemble candidates id info
  Act.logAll (resolved.contacts.map (keptContact id))
  Act.log (resolvedEvent resolved)
  pure resolved

/-- Asking the candidates ends with a connection that is refused, or with what they were found to
say. -/
theorem path_gather {r : Except AdminError ResolvedGroup}
    (h : Path (gather candidates seed).run xs r) :
    (∃ failure, xs = [⟨.connect candidates, .error failure⟩] ∧ r = .error (.internal failure)) ∨
      ∃ ys us found, Path (inquire candidates seed).run ys found ∧ (∀ u ∈ us, u.action.Notes) ∧
        xs = ⟨.connect candidates, .ok ()⟩ :: ys ++ ⟨.disconnect candidates, ()⟩ :: us ∧
        r = found.map fun (id, info) => assemble candidates id info := by
  refine Script.path_connected_bind h fun found ys q hy => ?_
  obtain ⟨us, hu, rfl⟩ := Script.path_logAll_bind_iff.mp hy
  obtain ⟨_, vs, hv, rfl⟩ := Script.path_perform_bind_iff.mp hu
  obtain ⟨rfl, rfl⟩ := Script.path_act_pure_iff.mp hv
  exact ⟨rfl, List.forall_mem_append.mpr
    ⟨by simp [Action.Notes], List.forall_mem_singleton.mpr trivial⟩⟩

/-- A resolution reads its request, which asks nobody and may fail, and goes on with the
candidates. -/
theorem path_resolve_gather {c : Configuration} {request : GroupRequest}
    {r : Except AdminError ResolvedGroup} (h : Path (resolve c request).run xs r) :
    (∃ e, plan c request = .error e ∧ r = .error e ∧ ∀ x ∈ xs, x.action.Notes) ∨
      ∃ seed candidates us ys, plan c request = .ok (seed, candidates) ∧
        (∀ u ∈ us, u.action.Notes) ∧ Path (gather candidates seed).run ys r ∧ xs = us ++ ys := by
  unfold resolve at h
  unfold plan
  generalize request.addresses c = read at h ⊢
  obtain ⟨addresses, c'⟩ := read
  obtain ⟨_, xs₁, h₁, rfl⟩ := Script.path_perform_bind_iff.mp h
  rcases Script.path_ofExcept_bind_iff.mp h₁ with ⟨e, rfl, rfl, rfl⟩ | ⟨addresses, rfl, h₂⟩
  · exact .inl ⟨e, rfl, rfl, List.forall_mem_singleton.mpr trivial⟩
  dsimp only at h₂ ⊢
  generalize request.seed c' = read at h₂ ⊢
  obtain ⟨seed, c'', events⟩ := read
  obtain ⟨_, xs₂, h₃, rfl⟩ := Script.path_perform_bind_iff.mp h₂
  obtain ⟨xs₃, h₄, rfl⟩ := Script.path_logAll_bind_iff.mp h₃
  -- what was said so far only told the configuration and the log what was read
  obtain ⟨us, hus, hsaid⟩ : ∃ us : List Turn, (∀ u ∈ us, u.action.Notes) ∧ ∀ ys,
      ⟨.learn c'.registry, ()⟩ :: ⟨.learn c''.registry, ()⟩ ::
        (events.map (fun event => (⟨.log event, ()⟩ : Turn)) ++ ys) = us ++ ys :=
    ⟨_ :: _ :: events.map _, by simp [Action.Notes], fun ys => rfl⟩
  rw [hsaid]
  rcases Script.path_ofExcept_bind_iff.mp h₄ with ⟨e, rfl, rfl, rfl⟩ | ⟨seed, rfl, h₅⟩
  · exact .inl ⟨e, rfl, rfl, by simpa using hus⟩
  change (∃ e, seeded seed addresses = .error e ∧ _) ∨
    ∃ seed' candidates _ _, seeded seed addresses = .ok (seed', candidates) ∧ _
  unfold seeded
  cases hempty : (candidateGroup seed addresses).isEmpty with
  | true =>
    simp only [hempty, if_true] at h₅
    rcases Script.path_act_bind_iff.mp h₅ with ⟨_, _, _, he, -, -⟩ | ⟨e, he, rfl⟩
    · exact absurd (Script.path_throw_iff.mp he).2 (by simp)
    · obtain ⟨rfl, hfault⟩ := Script.path_throw_iff.mp he
      exact .inl ⟨e, congrArg _ (Except.error.inj hfault).symm, rfl, by simpa using hus⟩
  | false =>
    simp only [hempty, Bool.false_eq_true, if_false] at h₅
    exact .inr ⟨seed, candidateGroup seed addresses, us, xs₃, rfl, hus, h₅, rfl⟩

/-- A resolution ends with the fault of its request, with a connection that is refused, or with what
the candidates were found to say. -/
theorem path_resolve {c : Configuration} {request : GroupRequest}
    {r : Except AdminError ResolvedGroup}
    (h : Path (resolve c request).run xs r) :
    (∃ e, plan c request = .error e ∧ r = .error e) ∨
      ∃ seed candidates, plan c request = .ok (seed, candidates) ∧
        ((∃ failure, ⟨.connect candidates, .error failure⟩ ∈ xs ∧ r = .error (.internal failure)) ∨
          ∃ ys found, Path (inquire candidates seed).run ys found ∧ ys ⊆ xs ∧
            r = found.map fun (id, info) => assemble candidates id info) := by
  rcases path_resolve_gather h with
    ⟨e, hplan, hr, -⟩ | ⟨seed, candidates, us, zs, hplan, -, hgather, rfl⟩
  · exact .inl ⟨e, hplan, hr⟩
  refine .inr ⟨seed, candidates, hplan, ?_⟩
  rcases path_gather hgather with ⟨failure, rfl, hr⟩ | ⟨ys, vs, found, hys, -, rfl, hr⟩
  · exact .inl ⟨failure, by simp, hr⟩
  · exact .inr ⟨ys, found, hys, fun y hy => by simp [hy], hr⟩

/-! ### What a resolution does -/

theorem only_askAll {P : Action → Prop} {β : Type} {inquiry : Inquiry}
    {ask : Peer → Script (Except RpcFailure (Option β))} (hlog : ∀ event, P (.log event))
    (hask : ∀ p, (ask p).Only P) : (askAll candidates inquiry ask).run.Only P := by
  refine Only.act_bind (Only.lift (Retry.only_firstAnswer (fun event => ?_) hask)) fun found => ?_
  · exact Script.only_call (hlog event)
  · cases found <;> exact trivial

theorem only_discover : (discover candidates).run.Only (Action.Consults candidates) := by
  refine Only.act_bind (only_askAll (fun _ => trivial) fun p => ?_) fun ids => ?_
  · have hask : Action.Consults candidates (.listGroups candidates p) := rfl
    refine (Script.only_call hask).bind fun reply => ?_
    cases reply <;> exact trivial
  · match ids with
    | [id] => exact Only.act_bind (only_perform trivial) fun _ => trivial
    | [] => exact trivial
    | _ :: _ :: _ => exact trivial

theorem only_fetchInfo {id : GroupId} :
    (fetchInfo candidates id).run.Only (Action.Consults candidates) := by
  refine only_askAll (fun _ => trivial) fun p => ?_
  have hask : Action.Consults candidates (.groupInfo candidates p id) := rfl
  refine (Script.only_call hask).bind fun reply => ?_
  cases reply with
  | error failure => exact trivial
  | ok info =>
    dsimp only
    split
    · exact trivial
    · exact (Script.only_call trivial).bind fun _ => trivial

/-- The candidates are asked over the connection to them. -/
theorem only_inquire : (inquire candidates seed).run.Only (Action.Consults candidates) := by
  have hfetched : ∀ id, (do let info ← fetchInfo candidates id; pure (id, info) : Act _).run.Only
      (Action.Consults candidates) := fun id => by
    refine Only.act_bind only_fetchInfo fun info => ?_
    exact trivial
  unfold inquire
  cases seed.id? with
  | some id => exact Only.act_bind trivial hfetched
  | none => exact Only.act_bind only_discover hfetched

/-- A resolution asks for no change of the cluster, and shows the operator nothing. -/
theorem only_resolve (c : Configuration) (request : GroupRequest) :
    (resolve c request).run.Only Action.Inquires := by
  unfold resolve
  generalize request.addresses c = read
  obtain ⟨addresses, c'⟩ := read
  refine Only.act_bind (only_perform trivial) fun _ => Only.act_bind trivial fun addresses => ?_
  dsimp only
  generalize request.seed c' = read
  obtain ⟨seed, c'', events⟩ := read
  refine Only.act_bind (only_perform trivial) fun _ => ?_
  refine Only.act_bind (only_logAll events fun _ => trivial) fun _ => ?_
  refine Only.act_bind trivial fun seed => ?_
  cases hempty : (candidateGroup seed addresses).isEmpty with
  | true => exact trivial
  | false =>
    simp only [Bool.false_eq_true, if_false]
    have hinquire : (inquire (candidateGroup seed addresses) seed).run.Only Action.Inquires :=
      Only.mono (fun _ h => h.inquires) only_inquire
    refine Only.act_bind (Only.connected hinquire trivial trivial) fun (id, info) => ?_
    refine Only.act_bind (only_logAll _ fun _ => trivial) fun _ => ?_
    exact Only.act_bind (only_perform trivial) fun _ => trivial

end Resolution

end RaftAdmin
