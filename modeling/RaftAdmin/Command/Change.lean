import RaftAdmin.Command.Basic
import RaftAdmin.Resolution.Basic

/-!
# Changing a group

The commands that add peers, remove peers and set priorities compute a new list of members from the
resolved group and submit it as a whole. None checks that the result is a viable quorum: the cluster
rejects changes that it cannot apply.
-/

namespace RaftAdmin

/-- Passes over a successful reply; a failed one is shown to the operator and ends the act. -/
def checkReply (reply : ClientReply) (context : String) : Act Unit :=
  if reply.success then pure ()
  else do
    Act.say [context, ". Error: ", reply.errorMessage]
    throw (.clusterRejected context reply.errorMessage)

/-- Submits a list of members for a resolved group and shows it to the operator. -/
def submitMembers (r : ResolvedGroup) (peers : List Peer) (context : String) : Act Int :=
  Act.connected r.contactGroup do
    let reply ← Act.answered (← Act.perform (.setConfiguration r.contactGroup peers))
    checkReply reply context
    Act.say ["Peers of group ", r.group.id.text, " are now ",
      Text.listing (peers.map Peer.text)]
    pure exitOk

/-! ### Adding peers -/

/-- The event for a peer that need not be added. -/
def alreadyMember (g : GroupId) (id : PeerId) : LogEvent :=
  .debug .quorum (id.text ++ " is already a member of " ++ g.text)

/-- The members with the peer at an address added, unless a member has its id. -/
def addPeer (peers : List Peer) (a : PeerAddress) : List Peer :=
  if peers.any fun p => p.id = PeerId.ofAddress a then peers else peers ++ [.ofAddress a]

/-- The members with the peers at addresses added. -/
def addPeers (peers : List Peer) (addresses : List PeerAddress) : List Peer :=
  addresses.foldl addPeer peers

/-- The ids of the addresses that need not be added, in order. -/
def knownIds : List Peer → List PeerAddress → List PeerId
  | _, [] => []
  | peers, a :: as =>
    if peers.any fun p => p.id = PeerId.ofAddress a then PeerId.ofAddress a :: knownIds peers as
    else knownIds (addPeer peers a) as

/-- Adds the peers at addresses. -/
def runQuorumAdd (c : Configuration) (request : GroupRequest) (values : List String) : Act Int := do
  let addresses ← Act.ofExcept (readAddresses .addPeer values)
  let r ← Resolution.resolve c request
  Act.logAll ((knownIds r.group.peers addresses).map (alreadyMember r.group.id))
  submitMembers r (addPeers r.group.peers addresses) "failed to add raft peer"

/-! ### Removing peers -/

/-- The members without those that have the derived id of an address. -/
def removePeers (peers : List Peer) (addresses : List PeerAddress) : List Peer :=
  peers.filter fun p => p.id ∉ addresses.map PeerId.ofAddress

/-- Removes the peers at addresses. -/
def runQuorumRemove (c : Configuration) (request : GroupRequest) (values : List String) :
    Act Int := do
  let addresses ← Act.ofExcept (readAddresses .removePeer values)
  let r ← Resolution.resolve c request
  submitMembers r (removePeers r.group.peers addresses) "failed to remove raft peer"

/-! ### Setting priorities -/

/-- The member with the priority of the last pair that has its address. -/
def prioritize (pairs : List (PeerAddress × UInt32)) (p : Peer) : Peer :=
  match pairs.reverse.find? fun pair => pair.1 = p.address with
  | some (_, priority) => p.withPriority priority
  | none => p

/-- The event for an address that no member has. -/
def ignoredAddress (g : GroupId) (a : PeerAddress) : LogEvent :=
  .debug .priority (a.text ++ " is not a member of " ++ g.text ++ ", ignoring")

/-- The requested addresses that no member has. -/
def strangers (peers : List Peer) (pairs : List (PeerAddress × UInt32)) : List PeerAddress :=
  (pairs.map Prod.fst).filter fun a => !peers.any fun p => p.address = a

/-- Sets the priorities of the members at addresses. -/
def runSetPriority (c : Configuration) (request : GroupRequest) (values : List String) :
    Act Int := do
  let pairs ← Act.ofExcept (readPairs values)
  let r ← Resolution.resolve c request
  Act.logAll ((strangers r.group.peers pairs).map (ignoredAddress r.group.id))
  submitMembers r (r.group.peers.map (prioritize pairs)) "failed to set peer priorities"

end RaftAdmin
