import RaftAdmin.Config.Basic
import RaftAdmin.Script.Connector
import RaftAdmin.Script.Sink

/-!
# Sessions

A session is the world in which a command runs: a cluster, the operator's stream, the log, the
configuration, and a clock that only waiting moves.
-/

namespace RaftAdmin

/-- The state of a session. -/
structure Session (σ : Type) where
  /-- The cluster. -/
  cluster : σ
  /-- The configuration. -/
  configuration : Configuration
  /-- The operator's stream. -/
  sink : Sink
  /-- The events that were reported, in order. -/
  events : List LogEvent
  /-- The milliseconds that were waited. -/
  slept : Nat

namespace Session

/-- A session in which nothing has happened yet. -/
def start {σ : Type} (cluster : σ) (configuration : Configuration) (limit? : Option Nat) :
    Session σ :=
  ⟨cluster, configuration, .fresh limit?, [], 0⟩

/-- Takes over what a call has changed. -/
def absorb {σ α : Type} (s : Session σ) (a : Answer σ α) : Except RpcFailure α × Session σ :=
  (a.result, { s with cluster := a.state, events := s.events ++ a.events })

/-- The longest time that a session waits at once: thirty years of 365 days, in milliseconds. -/
def longestWait : Nat := 30 * 365 * 24 * 60 * 60 * 1000

/-- Replies to an action. -/
def answer {σ : Type} (k : Connector σ) : (action : Action) → Session σ → action.Reply × Session σ
  | .connect group, s => s.absorb (k.connect group s.cluster)
  | .disconnect group, s => ((), { s with cluster := k.disconnect group s.cluster })
  | .listGroups group peer, s => s.absorb (k.listGroups group peer s.cluster)
  | .groupInfo group peer id, s => s.absorb (k.groupInfo group peer id s.cluster)
  | .setConfiguration group peers, s => s.absorb (k.setConfiguration group peers s.cluster)
  | .transferLeadership group target timeout, s =>
    s.absorb (k.transferLeadership group target timeout s.cluster)
  | .print fragments, s =>
    let (result, sink) := s.sink.write fragments
    (result, { s with sink := sink })
  | .sleep ms, s => ((), { s with slept := s.slept + min ms longestWait })
  | .log event, s => ((), { s with events := s.events ++ [event] })
  | .learn registry, s =>
    ((), { s with configuration := { s.configuration with registry := registry } })

/-- The sessions with a cluster as a world for scripts. -/
def world {σ : Type} (k : Connector σ) : Script.World (Session σ) := ⟨answer k⟩

/-- Runs a script. -/
def run {σ α : Type} (k : Connector σ) (p : Script α) (s : Session σ) : α × Session σ :=
  p.run (world k) s

end Session

end RaftAdmin
