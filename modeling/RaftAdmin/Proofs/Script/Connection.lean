import RaftAdmin.Proofs.Script.Reply

/-!
# The connections of a plan

A plan opens connections, uses those that are open, and closes them. This module follows the
connections that a plan has opened, whatever it is replied, and those that it leaves open when it
ends.

## The model

The open connections of a plan are a list of groups, the one opened last in front, and are closed in
this order. `Turn.Takes` says what a turn makes of them: a connection that is refused is not open,
and a call goes over one that is. `Leaves p before after` says that the plan leads from some open
connections to others on every path. What else is open at the same time is no part of this.

## What is proved

* `Leaves.act_bind`, `Leaves.connected` — an act after another, and over a connection.
* `Only.leaves` — a plan that only uses connections leaves them as they are.
* **`Leaves.run`** — what every turn of a plan makes of a world and of the open connections, the
  whole plan makes of them, and at every point of it.
-/

namespace RaftAdmin

/-- Whether an action opens and closes no connection, and makes no call but over these. -/
def Action.Uses (clients : List Group) : Action → Prop
  | .connect _ => False
  | .disconnect _ => False
  | .listGroups group _ => group ∈ clients
  | .groupInfo group _ _ => group ∈ clients
  | .setConfiguration group _ => group ∈ clients
  | .transferLeadership group _ _ => group ∈ clients
  | _ => True

theorem Action.Uses.mono {clients others : List Group} (hsub : clients ⊆ others) {action : Action}
    (h : action.Uses clients) : action.Uses others := by
  cases action with
  | connect group => exact h
  | disconnect group => exact h
  | listGroups group peer => exact hsub h
  | groupInfo group peer id => exact hsub h
  | setConfiguration group peers => exact hsub h
  | transferLeadership group target timeout => exact hsub h
  | _ => trivial

/-- What a turn makes of the open connections. -/
def Turn.Takes : Turn → List Group → List Group → Prop
  | ⟨.connect group, .ok _⟩, before, after => after = group :: before
  | ⟨.connect _, .error _⟩, before, after => after = before
  | ⟨.disconnect group, _⟩, before, after => before = group :: after
  | ⟨action, _⟩, before, after => action.Uses before ∧ after = before

theorem Action.Uses.takes {clients : List Group} {action : Action} (h : action.Uses clients)
    (reply : action.Reply) : Turn.Takes ⟨action, reply⟩ clients clients := by
  cases action with
  | connect group => exact h.elim
  | disconnect group => exact h.elim
  | _ => exact ⟨h, rfl⟩

namespace Script

variable {σ α β : Type} {before after clients : List Group}

/-- Whatever is replied, the plan leads from these open connections to those. -/
def Leaves : Script α → List Group → List Group → Prop
  | .done _, before, after => after = before
  | .perform action next, before, after =>
    ∀ reply, ∃ between, Turn.Takes ⟨action, reply⟩ before between ∧
      (next reply).Leaves between after

theorem Only.leaves {p : Script α} (hp : p.Only (Action.Uses clients)) :
    p.Leaves clients clients := by
  induction p with
  | done a => exact rfl
  | perform action next ih =>
    exact fun reply => ⟨clients, hp.1.takes reply, ih reply (hp.2 reply)⟩

theorem Leaves.bind {between : List Group} {p : Script α} {f : α → Script β}
    (hp : p.Leaves before between) (hf : ∀ a, (f a).Leaves between after) :
    (p >>= f).Leaves before after := by
  induction p generalizing before with
  | done a =>
    obtain rfl : between = before := hp
    exact hf a
  | perform action next ih =>
    intro reply
    obtain ⟨middle, htakes, hrest⟩ := hp reply
    exact ⟨middle, htakes, ih reply hrest⟩

/-! ### Acts -/

/-- An act after another, both of which close what they open. -/
theorem Leaves.act_bind {x : Act α} {f : α → Act β} (hx : x.run.Leaves clients clients)
    (hf : ∀ a, (f a).run.Leaves clients clients) : (x >>= f).run.Leaves clients clients := by
  rw [ExceptT.run_bind]
  refine hx.bind fun r => ?_
  cases r with
  | error e => exact rfl
  | ok a => exact hf a

theorem leaves_perform_bind {action : Action} {f : action.Reply → Act α}
    (h : ∀ reply, ∃ between, Turn.Takes ⟨action, reply⟩ before between ∧
      (f reply).run.Leaves between after) :
    (Act.perform action >>= f).run.Leaves before after :=
  h

theorem leaves_lift_bind {between : List Group} {p : Script β} {f : β → Act α}
    (hp : p.Leaves before between) (hf : ∀ b, (f b).run.Leaves between after) :
    (ExceptT.lift p >>= f : Act α).run.Leaves before after := by
  induction p generalizing before with
  | done b =>
    obtain rfl : between = before := hp
    exact hf b
  | perform action next ih =>
    intro reply
    obtain ⟨middle, htakes, hrest⟩ := hp reply
    exact ⟨middle, htakes, ih reply hrest⟩

/-- An act that only uses the connection over which it goes closes it however it ends. -/
theorem Leaves.connected {group : Group} {body : Act α}
    (hbody : body.run.Only (Action.Uses (group :: clients))) :
    (Act.connected group body).run.Leaves clients clients := by
  refine leaves_perform_bind fun reply => ?_
  cases reply with
  | error failure => exact ⟨clients, rfl, rfl⟩
  | ok =>
    refine ⟨group :: clients, rfl, leaves_lift_bind hbody.leaves fun result => ?_⟩
    exact leaves_perform_bind fun _ => ⟨clients, rfl, rfl⟩

/-! ### Runs -/

/-- What every turn makes of a world and of the open connections, a plan makes of them, and at every
point of it. -/
theorem Leaves.run {w : World σ} {I : List Group → σ → Prop}
    (hanswer : ∀ action s before after, I before s →
      Turn.Takes ⟨action, (w.answer action s).1⟩ before after → I after (w.answer action s).2)
    {p : Script α} (hp : p.Leaves before after) {s : σ} (hs : I before s) :
    (∀ xs ys t, p.turns w s = xs ++ ys → Replies w s xs t → ∃ clients, I clients t) ∧
      I after (p.run w s).2 := by
  induction p generalizing before s with
  | done a =>
    obtain rfl : after = before := hp
    refine ⟨fun xs ys t hturns hreplies => ?_, hs⟩
    obtain ⟨rfl, rfl⟩ := List.append_eq_nil_iff.mp hturns.symm
    cases hreplies
    exact ⟨_, hs⟩
  | perform action next ih =>
    obtain ⟨between, htakes, hrest⟩ := hp (w.answer action s).1
    obtain ⟨hpoints, hend⟩ := ih _ hrest (hanswer action s before between hs htakes)
    refine ⟨fun xs ys t hturns hreplies => ?_, hend⟩
    cases xs with
    | nil =>
      cases hreplies
      exact ⟨before, hs⟩
    | cons x xs =>
      obtain ⟨rfl, hxs⟩ := List.cons.inj hturns
      exact hpoints xs ys t hxs (replies_cons_iff.mp hreplies).2

end Script

end RaftAdmin
