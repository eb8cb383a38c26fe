import RaftAdmin.Proofs.Configuration.Observation
import RaftAdmin.Proofs.Resolution.Discipline
import RaftAdmin.Proofs.Script.Reply

/-!
# Service ids

A service id is shorthand for what is configured for a service: the peers to ask, and the id of its
group. An operator may as well spell this out, and with options that win over the configuration
anyway, only what is missing.

## The model

`GroupRequest.spelledOut` is the request without the service id, in which missing options are filled
with what is configured. A group id is filled in only if it is one, since a configured id that
cannot be used is passed over, while an option that cannot be used is an error. Options are filled
in the order in which a resolution looks them up, the peers first: the key of the peers of a service
with an empty id is unknown until somebody asks for it, and then the group id may refer to it.

To spell a request out takes reading what is configured, and references without end make that read
go on for ever, which `GroupRequest.ReadEnds` excludes. Without it the request cannot be spelled
out, and there is nothing to compare, since the resolution does not get past that read either.

## What is proved

* `plan_spelledOut` — both requests come to the same candidates and the same group id, or to the
  same error.
* `gather_congr` — where the group id comes from makes no difference.
* `resolve_endless` — a read of the group id that never ends holds the resolution up before it calls
  anybody.
* **`resolve_spelledOut`** — otherwise both resolutions make the same calls and end alike, whoever
  replies.
-/

namespace RaftAdmin

open Script (Path Replies)

/-! ### Results that correspond -/

/-- Two results are the same error, or two values that are related. -/
inductive Likewise {α β : Type} (R : α → β → Prop) :
    Except AdminError α → Except AdminError β → Prop where
  /-- The same error. -/
  | error (e : AdminError) : Likewise R (.error e) (.error e)
  /-- Related values. -/
  | ok {a : α} {b : β} (h : R a b) : Likewise R (.ok a) (.ok b)

namespace Likewise

variable {α β γ δ : Type} {R : α → β → Prop} {S : γ → δ → Prop}

theorem bind {x : Except AdminError α} {y : Except AdminError β} {f : α → Except AdminError γ}
    {g : β → Except AdminError δ} (h : Likewise R x y)
    (hf : ∀ a b, x = .ok a → R a b → Likewise S (f a) (g b)) : Likewise S (x >>= f) (y >>= g) := by
  cases h with
  | error e => exact .error e
  | ok hab => exact hf _ _ rfl hab

theorem refl (x : Except AdminError α) : Likewise Eq x x := by
  cases x with
  | error e => exact .error e
  | ok a => exact .ok rfl

end Likewise

/-! ### The request -/

/-- The value of the key of a family for a service. -/
def Configuration.getFor (c : Configuration) (t : KeyTemplate) (service : String) :
    Except ConfigError String :=
  (c.afterTemplateKey t service).get (c.templateKey t service)

theorem Configuration.get_templateKey (c : Configuration) (t : KeyTemplate) (service : String) :
    (c.afterTemplateKey t service).get (c.templateKey t service) = c.getFor t service := rfl

/-- Configurations that are alike have the same values for a service. -/
theorem Configuration.Alike.getFor {c c' : Configuration} (h : Alike c c') {t : KeyTemplate}
    {service : String} (hfits : t.Fits service) : c.getFor t service = c'.getFor t service := by
  rw [Configuration.getFor, Configuration.getFor, h.templateKey hfits,
    (h.afterTemplateKey hfits).get]

/-- Reading the key of a family for a service comes to an end, with a value or an error. -/
def Configuration.EndsFor (c : Configuration) (t : KeyTemplate) (service : String) : Prop :=
  (c.afterTemplateKey t service).Ends (c.templateKey t service)

theorem Configuration.endsFor_iff {c : Configuration} {t : KeyTemplate} {service : String} :
    c.EndsFor t service ↔ ∀ name, c.getFor t service ≠ .error (.endless name) := by
  constructor
  · intro hends name hget
    rcases error_of_get hget with habout | hname
    · exact habout
    · rw [getFor, hname] at hget
      exact get_eq_endless_iff.mp hget hends
  · intro h
    by_contra hends
    exact h _ (get_eq_endless_iff.mpr hends)

namespace GroupRequest

variable {c : Configuration} {r : GroupRequest} {service : String}

/-- The request without a service id, in which missing options are filled with what is configured
for the service. -/
def spelledOut (r : GroupRequest) (c : Configuration) : GroupRequest where
  peers? := r.peers?.or
    (r.serviceId?.bind fun service => (c.getFor .servicePeers service).toOption)
  groupId? := r.groupId?.or
    (r.serviceId?.bind fun service =>
      ((r.addresses c).2.getFor .serviceGroupId service).toOption.filter
        fun raw => (GroupId.ofString raw).toOption.isSome)
  serviceId? := none

/-- Reading the group id that is configured comes to an end, if the resolution gets as far as that:
if there are peers to ask and no group id is given. -/
def ReadEnds (r : GroupRequest) (c : Configuration) (service : String) : Prop :=
  ∀ addresses, (r.addresses c).1 = .ok addresses → r.groupId? = none →
    (r.addresses c).2.EndsFor .serviceGroupId service

/-- The same addresses are listed. -/
theorem addresses_spelledOut (hservice : r.serviceId? = some service)
    (hpeers : r.peers?.isSome = true ∨ ∃ list, c.getFor .servicePeers service = .ok list)
    (c' : Configuration) : (r.spelledOut c).addresses c' = ((r.addresses c).1, c') := by
  cases hgiven : r.peers? with
  | some list => simp [addresses, peerText, spelledOut, hgiven]
  | none =>
    obtain ⟨list, hlist⟩ := hpeers.resolve_left (by simp [hgiven])
    simp [addresses, peerText, spelledOut, hgiven, hservice, Configuration.get_templateKey, hlist,
      Except.toOption, Except.mapError]

/-- An error is passed over, unless it stands for a read that never ends. -/
theorem serviceSeed_of_error {k : PropertyKey} {e : ConfigError} (hget : c.get k = .error e)
    (hends : ∀ name, e ≠ .endless name) :
    serviceSeed service k c = (.ok .fallback, [unconfigured service e]) := by
  rw [serviceSeed, hget]
  cases e with
  | endless name => exact absurd rfl (hends name)
  | _ => rfl

theorem serviceSeed_of_endless {k : PropertyKey} {name : String}
    (hget : c.get k = .error (.endless name)) :
    serviceSeed service k c = (.error (.config (.endless name)), []) := by
  rw [serviceSeed, hget]

/-- The same group id is known. -/
theorem seed_spelledOut (hservice : r.serviceId? = some service)
    (hends : r.groupId? = none → (r.addresses c).2.EndsFor .serviceGroupId service)
    (c' : Configuration) :
    Likewise (fun seed seed' : Seed => seed.id? = seed'.id?) (r.seed (r.addresses c).2).1
      ((r.spelledOut c).seed c').1 := by
  cases hgiven : r.groupId? with
  | some raw =>
    cases hid : GroupId.ofString raw with
    | error e =>
      simp only [seed, spelledOut, hgiven, Option.some_or, hid]
      exact .error _
    | ok id =>
      simp only [seed, spelledOut, hgiven, Option.some_or, hid]
      exact .ok rfl
  | none =>
    have hread := Configuration.endsFor_iff.mp (hends hgiven)
    simp only [seed, spelledOut, hgiven, hservice, Option.none_or, Option.bind_some]
    generalize (r.addresses c).2 = d at hread ⊢
    cases hget : d.getFor .serviceGroupId service with
    | error e =>
      rw [serviceSeed_of_error hget fun name he => hread name (he ▸ hget)]
      exact .ok rfl
    | ok raw =>
      cases hid : GroupId.ofString raw with
      | error e =>
        simp only [serviceSeed, Configuration.get_templateKey, hget, hid, Except.toOption,
          Option.filter, Option.isSome_none, Bool.false_eq_true, if_false]
        exact .ok rfl
      | ok id =>
        simp only [serviceSeed, Configuration.get_templateKey, hget, hid, Except.toOption,
          Option.filter, Option.isSome_some, if_true]
        exact .ok rfl

/-- Unless the service id is empty and its peers are looked up, looking them up does not change the
group id that is configured. -/
theorem getFor_addresses (hservice : r.serviceId? = some service)
    (h : service ≠ "" ∨ r.peers?.isSome = true) :
    (r.addresses c).2.getFor .serviceGroupId service = c.getFor .serviceGroupId service := by
  have hfits : KeyTemplate.serviceGroupId.Fits service :=
    KeyTemplate.fits_of_mem (by decide) service
  refine Configuration.Alike.getFor ?_ hfits
  cases hgiven : r.peers? with
  | some list =>
    simp only [addresses, peerText, hgiven]
    exact .refl c
  | none =>
    have hfinds : KeyTemplate.servicePeers.Finds service :=
      KeyTemplate.finds_of_mem (by decide) (h.resolve_right (by simp [hgiven]))
    have hafter : (r.addresses c).2 = (c.afterTemplateKey .servicePeers service).afterReading
        (c.templateKey .servicePeers service) := by
      unfold addresses peerText
      simp only [hgiven, hservice]
      cases (c.afterTemplateKey .servicePeers service).get (c.templateKey .servicePeers service) <;>
        rfl
    have hasked : (c.afterTemplateKey .servicePeers service).Alike c :=
      .afterRead (x := .templateKey .servicePeers service) c trivial hfinds
    rw [hafter]
    exact hasked.note _ []

end GroupRequest

namespace Resolution

variable {σ : Type} {k : Connector σ} {s t : Session σ} {c : Configuration} {r : GroupRequest}
  {service : String} {xs : List Turn}

/-- Both requests come to the same candidates and the same group id, or to the same error. -/
theorem plan_spelledOut (hservice : r.serviceId? = some service)
    (hpeers : r.peers?.isSome = true ∨ ∃ list, c.getFor .servicePeers service = .ok list)
    (hends : r.ReadEnds c service) (c' : Configuration) :
    Likewise (fun p q : Seed × Group => p.1.id? = q.1.id? ∧ p.2 = q.2) (plan c r)
      (plan c' (r.spelledOut c)) := by
  unfold plan
  rw [GroupRequest.addresses_spelledOut hservice hpeers]
  refine (Likewise.refl _).bind fun addresses _ haddresses heq => ?_
  subst heq
  refine (GroupRequest.seed_spelledOut hservice (hends _ haddresses) c').bind
    fun seed seed' _ hid => ?_
  have hsame : candidateGroup seed addresses = candidateGroup seed' addresses := by
    rw [candidateGroup, candidateGroup, hid]
  unfold seeded
  rw [hsame]
  split
  · exact .error _
  · exact .ok ⟨hid, rfl⟩

/-- Where a group id comes from makes no difference to what the candidates are asked. -/
theorem gather_congr {seed seed' : Seed} (h : seed.id? = seed'.id?) (candidates : Group) :
    gather candidates seed = gather candidates seed' := by
  have hinquire : inquire candidates seed = inquire candidates seed' := by
    unfold inquire
    rw [h]
  rw [gather, gather, hinquire]

/-- What is noted changes neither the cluster nor the stream. -/
theorem matches_of_notes (h : Replies (Session.world k) s xs t) (hxs : ∀ x ∈ xs, x.action.Notes) :
    t.Matches s := by
  refine (h.keeps (T := fun _ => True) (P := Action.Notes) (I := fun u => u.Matches s)
    (fun action u hnotes hu => ⟨trivial, ?_⟩) hxs ⟨rfl, rfl⟩).2
  cases action with
  | learn registry => exact ⟨hu.cluster, hu.sink⟩
  | log event => exact ⟨hu.cluster, hu.sink⟩
  | _ => exact hnotes.elim

/-- A resolution whose request cannot be read only notes what it has read. -/
theorem resolve_of_fault {e : AdminError} (hplan : plan c r = .error e) (s : Session σ) :
    let p := (resolve c r).run
    (p.run (Session.world k) s).1 = .error e ∧
      (∀ x ∈ p.turns (Session.world k) s, x.action.Notes) ∧
      (p.run (Session.world k) s).2.Matches s := by
  intro p
  rcases path_resolve_gather (Script.path_run (Session.world k) p s) with
    ⟨e', hfault, hr, hnotes⟩ | ⟨_, _, _, _, hplanned, -⟩
  · obtain rfl := Except.error.inj (hplan.symm.trans hfault)
    exact ⟨hr, hnotes, matches_of_notes (Script.replies_run _ p s) hnotes⟩
  · cases hplan.symm.trans hplanned

/-- Otherwise it goes on with the candidates, after it has noted what it has read. -/
theorem resolve_of_planned {seed : Seed} {candidates : Group}
    (hplan : plan c r = .ok (seed, candidates)) (s : Session σ) :
    let p := (resolve c r).run
    let q := (gather candidates seed).run
    ∃ us t, (∀ u ∈ us, u.action.Notes) ∧ t.Matches s ∧
      p.turns (Session.world k) s = us ++ q.turns (Session.world k) t ∧
      p.run (Session.world k) s = q.run (Session.world k) t := by
  intro p q
  have hreplies := Script.replies_run (Session.world k) p s
  rcases path_resolve_gather (Script.path_run (Session.world k) p s) with
    ⟨e', hfault, -⟩ | ⟨seed', candidates', us, ys, hplanned, hus, hgather, hturns⟩
  · cases hplan.symm.trans hfault
  · obtain ⟨rfl, rfl⟩ := Prod.mk.inj (Except.ok.inj (hplan.symm.trans hplanned))
    rw [hturns] at hreplies
    obtain ⟨t, hnoted, hrest⟩ := Script.replies_append_iff.mp hreplies
    obtain ⟨hys, hrun⟩ := hgather.run_eq hrest
    exact ⟨us, t, hus, matches_of_notes hnoted hus, hturns.trans (congrArg _ hys.symm), hrun.symm⟩

/-- Requests that come to the same candidates and the same group id are resolved alike: the
conversations differ in what is noted at first, and in nothing else. -/
theorem resolve_congr {c' : Configuration} {r' : GroupRequest}
    (hplan : Likewise (fun p q : Seed × Group => p.1.id? = q.1.id? ∧ p.2 = q.2) (plan c r)
      (plan c' r')) (s : Session σ) :
    let p := (resolve c r).run
    let q := (resolve c' r').run
    (p.run (Session.world k) s).1 = (q.run (Session.world k) s).1 ∧
      (∃ us vs ys, p.turns (Session.world k) s = us ++ ys ∧
        q.turns (Session.world k) s = vs ++ ys ∧ (∀ u ∈ us, u.action.Notes) ∧
        ∀ v ∈ vs, v.action.Notes) ∧
      (p.run (Session.world k) s).2.Matches (q.run (Session.world k) s).2 := by
  intro p q
  generalize hx : plan c r = x at hplan
  generalize hy : plan c' r' = y at hplan
  cases hplan with
  | error e =>
    obtain ⟨hvalue, hnotes, hend⟩ := resolve_of_fault (k := k) hx s
    obtain ⟨hvalue', hnotes', hend'⟩ := resolve_of_fault (k := k) hy s
    refine ⟨hvalue.trans hvalue'.symm, ⟨_, _, [], ?_, ?_, hnotes, hnotes'⟩, hend.trans hend'.symm⟩
    · exact (List.append_nil _).symm
    · exact (List.append_nil _).symm
  | @ok planned planned' hsame =>
    obtain ⟨seed, candidates⟩ := planned
    obtain ⟨seed', candidates'⟩ := planned'
    obtain ⟨hid, rfl⟩ : seed.id? = seed'.id? ∧ candidates = candidates' := hsame
    -- both gather from here on, in sessions that match though they noted different keys
    obtain ⟨us, t, hus, ht, hturns, hrun⟩ := resolve_of_planned (k := k) hx s
    obtain ⟨vs, u, hvs, hu, hturns', hrun'⟩ := resolve_of_planned (k := k) hy s
    rw [← gather_congr hid] at hturns' hrun'
    obtain ⟨hsaid, hvalue, hend⟩ := (ht.trans hu.symm).run (k := k) (gather candidates seed).run
    rw [hsaid] at hturns
    rw [hrun, hrun']
    exact ⟨hvalue, ⟨us, vs, _, hturns, hturns', hus, hvs⟩, hend⟩

/-- A read of the group id that never ends holds the resolution up before it has called anybody. -/
theorem resolve_endless (k : Connector σ) (s : Session σ) (hservice : r.serviceId? = some service)
    (hends : ¬ r.ReadEnds c service) :
    let p := (resolve c r).run
    (∃ name, (p.run (Session.world k) s).1 = .error (.config (.endless name))) ∧
      Turn.calls (p.turns (Session.world k) s) = [] := by
  intro p
  obtain ⟨addresses, haddresses, hgiven, hread⟩ :
      ∃ addresses, (r.addresses c).1 = .ok addresses ∧ r.groupId? = none ∧
        ¬ (r.addresses c).2.EndsFor .serviceGroupId service := by
    simpa [GroupRequest.ReadEnds] using hends
  obtain ⟨name, hget⟩ := not_forall_not.mp (mt Configuration.endsFor_iff.mpr hread)
  have hseed : (r.seed (r.addresses c).2).1 = .error (.config (.endless name)) := by
    rw [GroupRequest.seed, hgiven, hservice]
    exact congrArg Prod.fst (GroupRequest.serviceSeed_of_endless hget)
  have hplan : plan c r = .error (.config (.endless name)) := by
    rw [plan, haddresses, hseed]
    rfl
  obtain ⟨hvalue, hnotes, -⟩ := resolve_of_fault (k := k) hplan s
  exact ⟨⟨name, hvalue⟩, Turn.calls_of_notes hnotes⟩

/-- **A service id is only shorthand.** Whatever the cluster is, a request with a service id, for
which peers are given or configured, is resolved with the same result and the same calls as the one
without it, in which missing peers are those that are configured for the service, and a missing
group id is the one that is configured, if it is one. The conversations differ in what is noted at
first, and the cluster is left in the same state. Only a read of that group id that never ends keeps
the request from being resolved, before anybody is called. -/
theorem resolve_spelledOut (k : Connector σ) (s : Session σ) (c : Configuration)
    (hservice : r.serviceId? = some service)
    (hpeers : r.peers?.isSome = true ∨ ∃ list, c.getFor .servicePeers service = .ok list)
    (c' : Configuration) :
    let p := (resolve c r).run
    let q := (resolve c' (r.spelledOut c)).run
    (r.ReadEnds c service →
      (p.run (Session.world k) s).1 = (q.run (Session.world k) s).1 ∧
      Turn.calls (p.turns (Session.world k) s) = Turn.calls (q.turns (Session.world k) s) ∧
      (∃ us vs ys, p.turns (Session.world k) s = us ++ ys ∧
        q.turns (Session.world k) s = vs ++ ys ∧ (∀ u ∈ us, u.action.Notes) ∧
        ∀ v ∈ vs, v.action.Notes) ∧
      (p.run (Session.world k) s).2.cluster = (q.run (Session.world k) s).2.cluster) ∧
    (¬ r.ReadEnds c service →
      (∃ name, (p.run (Session.world k) s).1 = .error (.config (.endless name))) ∧
      Turn.calls (p.turns (Session.world k) s) = []) ∧
    (service ≠ "" ∨ r.peers?.isSome = true →
      (r.addresses c).2.getFor .serviceGroupId service = c.getFor .serviceGroupId service) := by
  intro p q
  refine ⟨fun hends => ?_, resolve_endless k s hservice, GroupRequest.getFor_addresses hservice⟩
  have hplan := plan_spelledOut hservice hpeers hends c'
  obtain ⟨hvalue, hsame, hend⟩ := resolve_congr (k := k) hplan s
  refine ⟨hvalue, ?_, hsame, hend.cluster⟩
  obtain ⟨us, vs, ys, hp, hq, hus, hvs⟩ := hsame
  rw [hp, hq, Turn.calls_append, Turn.calls_append, Turn.calls_of_notes hus,
    Turn.calls_of_notes hvs]

/-- The peers and the group id of a service. -/
def metaConfiguration : Configuration :=
  Configuration.empty.merge [("quorumsh.meta.peers", "h2:9870"),
    ("quorumsh.meta.groupid", "55555555-5555-5555-5555-555555555555")]

/-- A request with a service id and nothing else. -/
def metaRequest : GroupRequest := ⟨none, none, some "meta"⟩

theorem getFor_metaConfiguration :
    metaConfiguration.getFor .servicePeers "meta" = .ok "h2:9870" ∧
      metaConfiguration.getFor .serviceGroupId "meta"
        = .ok "55555555-5555-5555-5555-555555555555" := by
  constructor
  · have hraw : (metaConfiguration.afterTemplateKey .servicePeers "meta").store.get?
        (metaConfiguration.templateKey .servicePeers "meta") = some "h2:9870" := by
      decide +kernel
    exact Configuration.get_of_plain hraw (by decide)
  · have hraw : (metaConfiguration.afterTemplateKey .serviceGroupId "meta").store.get?
        (metaConfiguration.templateKey .serviceGroupId "meta")
          = some "55555555-5555-5555-5555-555555555555" := by
      decide +kernel
    exact Configuration.get_of_plain hraw (by decide)

/-- Of two groups that the configured peer belongs to, the one with the configured id is found. -/
theorem resolve_spelledOut_meta :
    ∃ found, (Session.run Cluster.connector (resolve metaConfiguration metaRequest).run
        (.start overlapping .empty none)).1 = .ok found ∧
      overlapping.group? fives = some found.group := by
  obtain ⟨hpeers, hid⟩ := getFor_metaConfiguration
  have hread : (metaRequest.addresses metaConfiguration).2.getFor .serviceGroupId "meta"
      = .ok "55555555-5555-5555-5555-555555555555" :=
    (GroupRequest.getFor_addresses rfl (.inl (by decide))).trans hid
  have hends : metaRequest.ReadEnds metaConfiguration "meta" := fun _ _ _ =>
    Configuration.endsFor_iff.mpr fun name herror => by simp [hread] at herror
  obtain ⟨hresult, -⟩ := (resolve_spelledOut Cluster.connector
    (.start overlapping .empty none) metaConfiguration (r := metaRequest) rfl
    (.inr ⟨_, hpeers⟩) .empty).1 hends
  have hspelled : metaRequest.spelledOut metaConfiguration
      = ⟨some "h2:9870", some "55555555-5555-5555-5555-555555555555", none⟩ := by
    have hservice : metaRequest.serviceId? = some "meta" := rfl
    rw [GroupRequest.spelledOut, hservice, Option.bind_some, Option.bind_some, hpeers, hread]
    rfl
  obtain ⟨hfound, hgroup, -⟩ := resolved_known overlapping
    (candidateGroup (.explicit fives) [⟨"h2", 9870⟩]) (.explicit fives) rfl
  obtain ⟨found, hok⟩ := hfound.mpr ⟨.ofAddress ⟨"h2", 9870⟩, by decide, rfl, rfl⟩
  refine ⟨found, ?_, hgroup found hok⟩
  rw [hspelled] at hresult
  refine hresult.trans ((resolve_eq _ _ _).trans ?_)
  exact hok

end Resolution

end RaftAdmin
