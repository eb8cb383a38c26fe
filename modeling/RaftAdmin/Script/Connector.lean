import RaftAdmin.Script.Basic

/-!
# Connectors

A connector is a cluster as commands see it: it opens connections and answers the calls that go
over them.
-/

namespace RaftAdmin

/-- The outcome of a call: its result, the state of the cluster after it, and what was logged. -/
structure Answer (σ α : Type) where
  /-- The result, or why there is none. -/
  result : Except RpcFailure α
  /-- The state of the cluster afterwards. -/
  state : σ
  /-- The events that were reported, in order. -/
  events : List LogEvent

/-- A cluster with states `σ`. -/
structure Connector (σ : Type) where
  /-- Opens a connection to a group. -/
  connect : Group → σ → Answer σ Unit
  /-- Closes a connection to a group. -/
  disconnect : Group → σ → σ
  /-- Asks a peer which groups it belongs to. -/
  listGroups : Group → Peer → σ → Answer σ (List GroupId)
  /-- Asks a peer what it knows about a group. -/
  groupInfo : Group → Peer → GroupId → σ → Answer σ GroupInfoReply
  /-- Replaces members and priorities of the connected group. -/
  setConfiguration : Group → List Peer → σ → Answer σ ClientReply
  /-- Asks the connected group to make a member its leader within so many milliseconds. -/
  transferLeadership : Group → PeerId → Nat → σ → Answer σ ClientReply

namespace Connector

/-- The failure of the `n`-th attempt to connect to a group. -/
def refusal (n : Nat) (group : Group) : RpcFailure :=
  .plain ("connect " ++ Text.numeral n ++ " failed with " ++ Text.numeral group.peers.length
    ++ " peers")

/-- The cluster in front of which some attempts to connect fail: those whose number is in `failing`.
The number of attempts so far is kept beside the state. -/
def refusing {σ : Type} (failing : List Nat) (k : Connector σ) : Connector (Nat × σ) where
  connect group s :=
    if s.1 ∈ failing then ⟨.error (refusal s.1 group), (s.1 + 1, s.2), []⟩
    else
      let a := k.connect group s.2
      ⟨a.result, (s.1 + 1, a.state), a.events⟩
  disconnect group s := (s.1, k.disconnect group s.2)
  listGroups group peer s :=
    let a := k.listGroups group peer s.2
    ⟨a.result, (s.1, a.state), a.events⟩
  groupInfo group peer id s :=
    let a := k.groupInfo group peer id s.2
    ⟨a.result, (s.1, a.state), a.events⟩
  setConfiguration group peers s :=
    let a := k.setConfiguration group peers s.2
    ⟨a.result, (s.1, a.state), a.events⟩
  transferLeadership group target timeout s :=
    let a := k.transferLeadership group target timeout s.2
    ⟨a.result, (s.1, a.state), a.events⟩

end Connector

end RaftAdmin
