import RaftAdmin.Command.Info
import RaftAdmin.Config.Typed

/-!
# Moving leadership

Leadership moves to a chosen member in two steps. The member is first given the highest priority, so
that the group keeps preferring it; then, after a pause in which the change settles, the group is
asked to hand over.

## The model

The two spans of time are read before anybody is asked anything. A transfer that fails after the
priorities were changed is reported and ends the command with an exit code, not with an error.
-/

namespace RaftAdmin

/-- The priority of the member that is to lead. -/
def targetPriority : UInt32 := 2

/-- The priority of every other member. -/
def otherPriority : UInt32 := 1

/-- The members with the priorities that prefer one of them. -/
def preferring (id : PeerId) (peers : List Peer) : List Peer :=
  peers.map fun p => p.withPriority (if p.id = id then targetPriority else otherPriority)

/-- A span of time from the configuration. -/
def readDuration (c : Configuration) (k : PropertyKey) : Act Nat := do
  Act.perform (.learn (c.afterReading k).registry)
  Act.ofExcept ((c.getDuration k).mapError .config)

/-- The error if no member is at the target address. -/
def notInQuorum (target : PeerAddress) (g : Group) : AdminError :=
  .peerNotInQuorum target.text (g.peers.map fun p => p.address.text)

/-- Asks for the transfer and checks the reply. -/
def requestTransfer (group : Group) (target : PeerId) (timeout : Nat) : Act Unit := do
  let reply ← Act.answered (← Act.perform (.transferLeadership group target timeout))
  checkReply reply "election failed"

/-- The event for a failed transfer. -/
def transferFailed (id : PeerId) (e : AdminError) : LogEvent :=
  .warn .elect ("Leadership transfer to " ++ id.text ++ " failed: " ++ e.message)

/-- The event for a transfer that was accepted. -/
def transferInitiated (id : PeerId) : LogEvent :=
  .info .elect ("Leadership transfer to " ++ id.text ++ " initiated")

/-- Reports how the transfer went. -/
def concludeTransfer (id : PeerId) : Except AdminError Unit → Act Int
  | .error e => do
    Act.log (transferFailed id e)
    Act.say ("caught an error when executing transfer: " :: e.fragments)
    pure exitError
  | .ok () => do
    Act.log (transferInitiated id)
    Act.say ["Transferring leadership initiated"]
    pure exitOk

/-- Prefers a member and hands leadership over to it. -/
def handOver (r : ResolvedGroup) (member : Peer) (settle timeout : Nat) : Act Int :=
  Act.connected r.contactGroup do
    let peers := preferring member.id r.group.peers
    Act.say ["Applying new peer state before transferring leadership: ",
      Text.listing (peers.map Peer.text)]
    let reply ← Act.answered (← Act.perform (.setConfiguration r.contactGroup peers))
    checkReply reply "failed to set priorities before initiating election"
    Act.say ("Transferring leadership to server with address <" :: member.address.fragments
      ++ ["> and with peer id <", member.id.text, ">"])
    Act.perform (.sleep settle)
    let outcome ← ExceptT.lift (requestTransfer r.contactGroup member.id timeout).run
    concludeTransfer member.id outcome

/-- Moves leadership to the member at an address. -/
def runElect (c : Configuration) (request : GroupRequest) (address? : Option String) : Act Int := do
  let target ← Act.ofExcept (readTarget address?)
  let settle ← readDuration c .electSettleDelay
  let c := c.afterReading .electSettleDelay
  let timeout ← readDuration c .electTransferTimeout
  let c := c.afterReading .electTransferTimeout
  let r ← Resolution.resolve c request
  match r.group.peerAt? target with
  | none => throw (notInQuorum target r.group)
  | some member => handOver r member settle timeout

end RaftAdmin
