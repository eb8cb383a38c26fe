import RaftAdmin.Script.Act

/-!
# The ways a plan can go

A plan goes on with every reply to its actions. This module says which conversations a plan can
have, with whomever, and what it ends with after each of them.

## The model

A turn is an action with the reply to it, and a conversation is a list of turns. `Path p xs a` says
that the plan `p` can have the conversation `xs` and then ends with `a`. A world that replies picks
one of these paths (`path_run`), so what holds of all paths holds in all worlds.

## What is proved

* `path_bind_iff`, `path_act_bind_iff` — the paths of one plan, or act, after another.
* `path_connected_iff` — the paths of an act over a connection.
* `Path.unique` — the replies determine the path.
* `Only.run` — what every action that a plan can come to keeps, the whole plan keeps.
-/

namespace RaftAdmin

/-- An action and the reply to it. -/
structure Turn where
  /-- The action. -/
  action : Action
  /-- The reply. -/
  reply : action.Reply

namespace Script

/-- The plan can have this conversation, and ends with this value after it. -/
inductive Path {α : Type} : Script α → List Turn → α → Prop where
  /-- The plan has come to its end. -/
  | done (a : α) : Path (.done a) [] a
  /-- The plan goes on with the reply to its action. -/
  | perform {action : Action} {next : action.Reply → Script α} {xs : List Turn} {a : α}
      (reply : action.Reply) :
      Path (next reply) xs a → Path (.perform action next) (⟨action, reply⟩ :: xs) a

variable {σ α β : Type} {xs : List Turn}

/-- The conversation of a plan with a world. -/
def turns (w : World σ) : Script α → σ → List Turn
  | .done _, _ => []
  | .perform action next, s =>
    let (reply, s) := w.answer action s
    ⟨action, reply⟩ :: (next reply).turns w s

theorem turns_perform (w : World σ) (action : Action) (next : action.Reply → Script α) (s : σ) :
    (perform action next).turns w s =
      ⟨action, (w.answer action s).1⟩ ::
        (next (w.answer action s).1).turns w (w.answer action s).2 :=
  rfl

theorem run_perform (w : World σ) (action : Action) (next : action.Reply → Script α) (s : σ) :
    (perform action next).run w s =
      (next (w.answer action s).1).run w (w.answer action s).2 :=
  rfl

/-- A world that replies picks a path. -/
theorem path_run (w : World σ) (p : Script α) (s : σ) : Path p (p.turns w s) (p.run w s).1 := by
  induction p generalizing s with
  | done a => exact .done a
  | perform action next ih => exact .perform _ (ih _ _)

/-- The replies tell which path a plan takes: two conversations that it can have, of which one goes
on where the other does, are the same and end with the same value. -/
theorem Path.unique {p : Script α} {ys us vs : List Turn} {a b : α} (h : Path p xs a)
    (h' : Path p ys b) (hsame : xs ++ us = ys ++ vs) : xs = ys ∧ a = b ∧ us = vs := by
  induction h generalizing ys with
  | done a =>
    cases h'
    exact ⟨rfl, rfl, hsame⟩
  | perform reply _ ih =>
    cases h' with
    | perform reply' h' =>
      obtain ⟨hturn, hrest⟩ := List.cons.inj hsame
      cases hturn
      obtain ⟨rfl, rfl, rfl⟩ := ih h' hrest
      exact ⟨rfl, rfl, rfl⟩

/-! ### Plans -/

theorem path_pure_iff {a b : α} : Path (pure a : Script α) xs b ↔ xs = [] ∧ b = a := by
  constructor
  · rintro ⟨⟩
    exact ⟨rfl, rfl⟩
  · rintro ⟨rfl, rfl⟩
    exact .done _

theorem path_call_iff {action : Action} {reply : action.Reply} :
    Path (call action) xs reply ↔ xs = [⟨action, reply⟩] := by
  constructor
  · rintro (_ | ⟨reply, ⟨⟩⟩)
    rfl
  · rintro rfl
    exact .perform reply (.done reply)

theorem path_bind_iff {p : Script α} {f : α → Script β} {b : β} :
    Path (p >>= f) xs b ↔ ∃ ys a zs, Path p ys a ∧ Path (f a) zs b ∧ xs = ys ++ zs := by
  constructor
  · intro h
    induction p generalizing xs with
    | done a => exact ⟨[], a, xs, .done a, h, rfl⟩
    | perform action next ih =>
      cases h with
      | perform reply h =>
        obtain ⟨ys, a, zs, hy, hz, rfl⟩ := ih reply h
        exact ⟨_, a, zs, .perform reply hy, hz, rfl⟩
  · rintro ⟨ys, a, zs, hy, hz, rfl⟩
    induction hy with
    | done a => exact hz
    | perform reply _ ih => exact .perform reply (ih hz)

/-! ### Acts -/

variable {r : Except AdminError α} {q : Except AdminError β} {e : AdminError} {group : Group}

theorem path_act_pure_iff {a : α} : Path (pure a : Act α).run xs r ↔ xs = [] ∧ r = .ok a :=
  path_pure_iff

theorem path_throw_iff : Path (throw e : Act α).run xs r ↔ xs = [] ∧ r = .error e :=
  path_pure_iff

theorem path_ofExcept_iff {result : Except AdminError α} :
    Path (Act.ofExcept result).run xs r ↔ xs = [] ∧ r = result :=
  path_pure_iff

/-- An act after another has the paths of both, or those on which the first fails. -/
theorem path_act_bind_iff {x : Act α} {f : α → Act β} :
    Path (x >>= f).run xs q ↔
      (∃ ys a zs, Path x.run ys (.ok a) ∧ Path (f a).run zs q ∧ xs = ys ++ zs) ∨
        ∃ e, Path x.run xs (.error e) ∧ q = .error e := by
  rw [ExceptT.run_bind, path_bind_iff]
  constructor
  · rintro ⟨ys, _ | a, zs, hy, hz, rfl⟩
    · obtain ⟨rfl, rfl⟩ := path_pure_iff.mp hz
      exact .inr ⟨_, by simpa using hy, rfl⟩
    · exact .inl ⟨ys, a, zs, hy, hz, rfl⟩
  · rintro (⟨ys, a, zs, hy, hz, rfl⟩ | ⟨e, hx, rfl⟩)
    · exact ⟨ys, .ok a, zs, hy, hz, rfl⟩
    · exact ⟨xs, .error e, [], hx, .done _, by simp⟩

theorem path_lift_iff {p : Script α} :
    Path (ExceptT.lift p : Act α).run xs r ↔ ∃ a, Path p xs a ∧ r = .ok a := by
  change Path (p >>= fun a => pure (.ok a)) xs r ↔ _
  rw [path_bind_iff]
  constructor
  · rintro ⟨ys, a, zs, hy, hz, rfl⟩
    obtain ⟨rfl, rfl⟩ := path_pure_iff.mp hz
    exact ⟨a, by simpa using hy, rfl⟩
  · rintro ⟨a, hx, rfl⟩
    exact ⟨xs, a, [], hx, .done _, by simp⟩

/-- A plan never fails as an act, so an act after it goes on with its value. -/
theorem path_lift_bind_iff {p : Script β} {f : β → Act α} :
    Path (ExceptT.lift p >>= f : Act α).run xs r ↔
      ∃ ys a zs, Path p ys a ∧ Path (f a).run zs r ∧ xs = ys ++ zs := by
  rw [path_act_bind_iff]
  constructor
  · rintro (⟨ys, a, zs, hy, hz, rfl⟩ | ⟨e, hx, -⟩)
    · obtain ⟨b, hy, ha⟩ := path_lift_iff.mp hy
      obtain rfl := Except.ok.inj ha
      exact ⟨ys, a, zs, hy, hz, rfl⟩
    · obtain ⟨b, -, he⟩ := path_lift_iff.mp hx
      cases he
  · rintro ⟨ys, a, zs, hy, hz, rfl⟩
    exact .inl ⟨ys, a, zs, path_lift_iff.mpr ⟨a, hy, rfl⟩, hz, rfl⟩

theorem path_perform_bind_iff {action : Action} {f : action.Reply → Act α} :
    Path (Act.perform action >>= f).run xs r ↔
      ∃ reply ys, Path (f reply).run ys r ∧ xs = ⟨action, reply⟩ :: ys := by
  rw [Act.perform, path_lift_bind_iff]
  constructor
  · rintro ⟨ys, reply, zs, hy, hz, rfl⟩
    obtain rfl := path_call_iff.mp hy
    exact ⟨reply, zs, hz, rfl⟩
  · rintro ⟨reply, ys, hy, rfl⟩
    exact ⟨_, reply, ys, path_call_iff.mpr rfl, hy, rfl⟩

/-- Reporting events never fails either. -/
theorem path_logAll_bind_iff {events : List LogEvent} {f : Unit → Act α} :
    Path (Act.logAll events >>= f).run xs r ↔
      ∃ ys, Path (f ()).run ys r ∧ xs = events.map (fun event => ⟨.log event, ()⟩) ++ ys := by
  have hlogAll : ∀ {xs : List Turn} {q : Except AdminError Unit},
      Path (Act.logAll events).run xs q ↔
        xs = events.map (fun event => ⟨.log event, ()⟩) ∧ q = .ok () := by
    induction events with
    | nil => exact path_act_pure_iff
    | cons event events ih =>
      intro xs q
      rw [Act.logAll, Act.log, path_perform_bind_iff]
      simp only [ih, List.map_cons]
      exact ⟨fun ⟨_, _, ⟨hy, hq⟩, hx⟩ => ⟨hy ▸ hx, hq⟩, fun ⟨hx, hq⟩ => ⟨(), _, ⟨rfl, hq⟩, hx⟩⟩
  rw [path_act_bind_iff]
  constructor
  · rintro (⟨ys, ⟨⟩, zs, hy, hz, rfl⟩ | ⟨e, he, -⟩)
    · obtain ⟨rfl, -⟩ := hlogAll.mp hy
      exact ⟨zs, hz, rfl⟩
    · cases (hlogAll.mp he).2
  · rintro ⟨ys, hy, rfl⟩
    exact .inl ⟨_, (), ys, hlogAll.mpr ⟨rfl, rfl⟩, hy, rfl⟩

/-- A result is taken, or fails at once. -/
theorem path_ofExcept_bind_iff {result : Except AdminError β} {f : β → Act α} :
    Path (Act.ofExcept result >>= f).run xs r ↔
      (∃ e, result = .error e ∧ xs = [] ∧ r = .error e) ∨
        ∃ b, result = .ok b ∧ Path (f b).run xs r := by
  rw [path_act_bind_iff]
  simp only [path_ofExcept_iff]
  constructor
  · rintro (⟨ys, b, zs, ⟨rfl, hb⟩, hz, rfl⟩ | ⟨e, ⟨rfl, he⟩, rfl⟩)
    · exact .inr ⟨b, hb.symm, hz⟩
    · exact .inl ⟨e, he.symm, rfl, rfl⟩
  · rintro (⟨e, rfl, rfl, rfl⟩ | ⟨b, rfl, hx⟩)
    · exact .inr ⟨e, ⟨rfl, rfl⟩, rfl⟩
    · exact .inl ⟨[], b, xs, ⟨rfl, rfl⟩, hx, rfl⟩

theorem path_answered_iff {x : Except RpcFailure α} :
    Path (Act.answered x).run xs r ↔ xs = [] ∧ r = x.mapError .internal := by
  cases x with
  | ok a => exact path_act_pure_iff
  | error failure => exact path_throw_iff

/-- An act over a connection has its paths between the opening and the closing of the connection,
unless this is refused. -/
theorem path_connected_iff {body : Act α} :
    Path (Act.connected group body).run xs r ↔
      (∃ failure, xs = [⟨.connect group, .error failure⟩] ∧ r = .error (.internal failure)) ∨
        ∃ ys, Path body.run ys r ∧
          xs = ⟨.connect group, .ok ()⟩ :: ys ++ [⟨.disconnect group, ()⟩] := by
  rw [Act.connected, path_perform_bind_iff]
  constructor
  · rintro ⟨failure | ⟨⟨⟩⟩, ys, hy, rfl⟩
    · rcases path_act_bind_iff.mp hy with ⟨_, _, _, hanswered, -, -⟩ | ⟨e, hanswered, rfl⟩
      · cases (path_answered_iff.mp hanswered).2
      · obtain ⟨rfl, he⟩ := path_answered_iff.mp hanswered
        exact .inl ⟨failure, rfl, congrArg _ (Except.error.inj he)⟩
    · rcases path_act_bind_iff.mp hy with ⟨us, _, vs, hanswered, hv, rfl⟩ | ⟨e, hanswered, -⟩
      · obtain ⟨rfl, -⟩ := path_answered_iff.mp hanswered
        obtain ⟨ws, result, zs, hbody, hclose, rfl⟩ := path_lift_bind_iff.mp hv
        obtain ⟨_, ts, hresult, rfl⟩ := path_perform_bind_iff.mp hclose
        obtain ⟨rfl, rfl⟩ := path_ofExcept_iff.mp hresult
        exact .inr ⟨ws, hbody, rfl⟩
      · cases (path_answered_iff.mp hanswered).2
  · rintro (⟨failure, rfl, rfl⟩ | ⟨ys, hbody, rfl⟩)
    · refine ⟨.error failure, [], path_act_bind_iff.mpr (.inr ⟨_, ?_, rfl⟩), rfl⟩
      exact path_answered_iff.mpr ⟨rfl, rfl⟩
    · refine ⟨.ok (), ys ++ [⟨.disconnect group, ()⟩], path_act_bind_iff.mpr (.inl ?_), rfl⟩
      refine ⟨[], (), _, path_answered_iff.mpr ⟨rfl, rfl⟩, path_lift_bind_iff.mpr ?_, rfl⟩
      refine ⟨ys, r, [_], hbody, path_perform_bind_iff.mpr ⟨(), [], ?_, rfl⟩, rfl⟩
      exact path_ofExcept_iff.mpr ⟨rfl, rfl⟩

/-- After a connection that is not refused, what follows and cannot fail takes up the result. -/
theorem path_connected_bind {body : Act α} {f : α → Act β} {g : α → β} {T : Turn → Prop}
    (h : Path (Act.connected group body >>= f).run xs q)
    (hf : ∀ a ys q, Path (f a).run ys q → q = .ok (g a) ∧ ∀ y ∈ ys, T y) :
    (∃ failure, xs = [⟨.connect group, .error failure⟩] ∧ q = .error (.internal failure)) ∨
      ∃ ys zs r, Path body.run ys r ∧ (∀ z ∈ zs, T z) ∧
        xs = ⟨.connect group, .ok ()⟩ :: ys ++ ⟨.disconnect group, ()⟩ :: zs ∧ q = r.map g := by
  rcases path_act_bind_iff.mp h with ⟨ys, a, zs, hy, hz, rfl⟩ | ⟨e, he, rfl⟩
  · obtain ⟨hq, hzs⟩ := hf a zs q hz
    rcases path_connected_iff.mp hy with ⟨_, -, hok⟩ | ⟨us, hu, rfl⟩
    · cases hok
    · exact .inr ⟨us, zs, .ok a, hu, hzs, by simp, hq⟩
  · rcases path_connected_iff.mp he with ⟨failure, rfl, hfailure⟩ | ⟨us, hu, rfl⟩
    · obtain rfl := Except.error.inj hfailure
      exact .inl ⟨failure, rfl, rfl⟩
    · exact .inr ⟨us, [], .error e, hu, by simp, rfl, rfl⟩

/-! ### What a plan can come to -/

/-- All actions that the plan can come to are such. -/
def Only (P : Action → Prop) : Script α → Prop
  | .done _ => True
  | .perform action next => P action ∧ ∀ reply, (next reply).Only P

variable {P : Action → Prop}

/-- What one such action keeps, the whole plan keeps, and what it makes sure of the reply to one
holds of all turns. -/
theorem Only.run {w : World σ} {I : σ → Prop} {T : Turn → Prop}
    (hanswer : ∀ action s, P action → I s →
      T ⟨action, (w.answer action s).1⟩ ∧ I (w.answer action s).2)
    {p : Script α} (hp : p.Only P) {s : σ} (hs : I s) :
    (∀ x ∈ p.turns w s, T x) ∧ I (p.run w s).2 := by
  induction p generalizing s with
  | done a => exact ⟨by simp [turns], hs⟩
  | perform action next ih =>
    obtain ⟨hturn, hs⟩ := hanswer action s hp.1 hs
    obtain ⟨hturns, hend⟩ := ih _ (hp.2 _) hs
    refine ⟨fun x hx => ?_, hend⟩
    rcases List.mem_cons.mp hx with rfl | hx
    · exact hturn
    · exact hturns x hx

/-- A conversation of the plan consists of such actions. -/
theorem Only.of_path {p : Script α} (hp : p.Only P) {a : α} (h : Path p xs a) :
    ∀ x ∈ xs, P x.action := by
  induction h with
  | done a => simp
  | perform reply _ ih => exact List.forall_mem_cons.mpr ⟨hp.1, ih (hp.2 reply)⟩

theorem Only.mono {Q : Action → Prop} (hPQ : ∀ action, P action → Q action) {p : Script α}
    (hp : p.Only P) : p.Only Q := by
  induction p with
  | done a => trivial
  | perform action next ih => exact ⟨hPQ action hp.1, fun reply => ih reply (hp.2 reply)⟩

theorem only_call {action : Action} (h : P action) : (call action).Only P := ⟨h, fun _ => trivial⟩

theorem Only.bind {p : Script α} {f : α → Script β} (hp : p.Only P) (hf : ∀ a, (f a).Only P) :
    (p >>= f).Only P := by
  induction p with
  | done a => exact hf a
  | perform action next ih => exact ⟨hp.1, fun reply => ih reply (hp.2 reply)⟩

theorem Only.act_bind {x : Act α} {f : α → Act β} (hx : x.run.Only P) (hf : ∀ a, (f a).run.Only P) :
    (x >>= f).run.Only P := by
  rw [ExceptT.run_bind]
  refine hx.bind fun r => ?_
  cases r with
  | error e => exact trivial
  | ok a => exact hf a

theorem Only.lift {p : Script α} (hp : p.Only P) : (ExceptT.lift p : Act α).run.Only P :=
  Only.bind hp fun _ => trivial

theorem only_perform {action : Action} (h : P action) : (Act.perform action).run.Only P :=
  Only.lift (only_call h)

theorem only_logAll (events : List LogEvent) (h : ∀ event, P (.log event)) :
    (Act.logAll events).run.Only P := by
  induction events with
  | nil => exact trivial
  | cons event events ih => exact Only.act_bind (only_perform (h event)) fun _ => ih

theorem only_answered (x : Except RpcFailure α) : (Act.answered x).run.Only P := by
  cases x <;> exact trivial

theorem Only.connected {body : Act α} (hbody : body.run.Only P) (hopen : P (.connect group))
    (hclose : P (.disconnect group)) : (Act.connected group body).run.Only P := by
  refine Only.act_bind (only_perform hopen) fun reply => ?_
  refine Only.act_bind (only_answered reply) fun _ => ?_
  refine Only.act_bind (Only.lift hbody) fun result => ?_
  exact Only.act_bind (only_perform hclose) fun _ => trivial

end Script

end RaftAdmin
