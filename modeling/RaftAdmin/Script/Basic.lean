import RaftAdmin.Config.Registry
import RaftAdmin.Log.Event
import RaftAdmin.Rpc.Failure
import RaftAdmin.Rpc.Reply

/-!
# Scripts

A command talks to a cluster, to the operator and to the log. A script is the plan of such a
conversation as a value: an action, and for every reply to it the rest of the plan.

## The model

`Action` lists what a command can do and `Action.Reply` what it learns from it. Calls to the cluster
name the group of the connection they go over, which is the group that `connect` was given. Whoever
runs a script decides on the replies, so a statement about all scripts of a command is a statement
about all behaviours of the cluster and of the operator's stream.
-/

namespace RaftAdmin

/-- One thing that a command does. -/
inductive Action where
  /-- Opens a connection to a group. -/
  | connect (group : Group)
  /-- Closes the connection to a group. -/
  | disconnect (group : Group)
  /-- Asks a peer which groups it belongs to. -/
  | listGroups (group : Group) (peer : Peer)
  /-- Asks a peer what it knows about a group. -/
  | groupInfo (group : Group) (peer : Peer) (id : GroupId)
  /-- Replaces members and priorities of the connected group. -/
  | setConfiguration (group : Group) (peers : List Peer)
  /-- Asks the connected group to make a member its leader within so many milliseconds. -/
  | transferLeadership (group : Group) (target : PeerId) (timeout : Nat)
  /-- Writes to the operator's stream, one fragment after the other. -/
  | print (fragments : List String)
  /-- Waits for so many milliseconds. -/
  | sleep (ms : Nat)
  /-- Reports an event. -/
  | log (event : LogEvent)
  /-- Makes the configuration list these keys. -/
  | learn (registry : Registry)

/-- What a command learns from an action. -/
@[reducible] def Action.Reply : Action → Type
  | .connect _ => Except RpcFailure Unit
  | .disconnect _ => Unit
  | .listGroups _ _ => Except RpcFailure (List GroupId)
  | .groupInfo _ _ _ => Except RpcFailure GroupInfoReply
  | .setConfiguration _ _ => Except RpcFailure ClientReply
  | .transferLeadership _ _ _ => Except RpcFailure ClientReply
  | .print _ => Except String Unit
  | .sleep _ => Unit
  | .log _ => Unit
  | .learn _ => Unit

/-- A plan of actions that ends with a value. -/
inductive Script (α : Type) : Type where
  /-- The plan has come to its end. -/
  | done (value : α)
  /-- An action, and the rest of the plan for every reply. -/
  | perform (action : Action) (next : action.Reply → Script α)

namespace Script

/-- One plan after another. -/
def bind {α β : Type} : Script α → (α → Script β) → Script β
  | .done a, f => f a
  | .perform action next, f => .perform action fun reply => (next reply).bind f

instance : Monad Script where
  pure := .done
  bind := bind

/-- The plan of a single action. -/
def call (action : Action) : Script action.Reply := .perform action .done

/-- Whoever replies to actions, in some state. -/
structure World (σ : Type) where
  /-- The reply to an action, and the state after it. -/
  answer : (action : Action) → σ → action.Reply × σ

/-- Runs a plan in a world: its value, and the state of the world after it. -/
def run {σ α : Type} (w : World σ) : Script α → σ → α × σ
  | .done a, s => (a, s)
  | .perform action next, s =>
    let (reply, s) := w.answer action s
    (next reply).run w s

@[simp] theorem pure_bind {α β : Type} (a : α) (f : α → Script β) :
    (Script.done a).bind f = f a := rfl

theorem bind_done {α : Type} (p : Script α) : p.bind .done = p := by
  induction p with
  | done a => rfl
  | perform action next ih => exact congrArg _ (funext fun r => ih r)

theorem bind_assoc {α β γ : Type} (p : Script α) (f : α → Script β) (g : β → Script γ) :
    (p.bind f).bind g = p.bind fun a => (f a).bind g := by
  induction p with
  | done a => rfl
  | perform action next ih => exact congrArg _ (funext fun r => ih r)

/-- Running one plan after another runs the second where the first left the world. -/
theorem run_bind {σ α β : Type} (w : World σ) (p : Script α) (f : α → Script β) (s : σ) :
    (p.bind f).run w s = (f (p.run w s).1).run w (p.run w s).2 := by
  induction p generalizing s with
  | done a => rfl
  | perform action next ih => exact ih _ _

end Script

end RaftAdmin
