import RaftAdmin.Peer.Address

/-!
# Peers

A peer is a member of a group: an id, the address it listens at, and its priority in elections.

## The model

The id identifies a member; address and priority are what the current configuration says about it.
An operator names peers by address only, and the id derived from an address is `HOST_PORT`. A
cluster may report ids of any other shape.
-/

namespace RaftAdmin

/-- The identity of a cluster member. -/
structure PeerId where
  /-- The id as the cluster writes it. -/
  text : String
deriving DecidableEq, Repr, Inhabited

namespace PeerId

instance : ToString PeerId := ⟨text⟩

/-- The id of a peer that is only known by its address. -/
def ofAddress (a : PeerAddress) : PeerId := ⟨a.host ++ "_" ++ Text.numeral a.port.toNat⟩

end PeerId

/-- One member of a group in some configuration. -/
structure Peer where
  /-- Who it is. -/
  id : PeerId
  /-- Where it listens. -/
  address : PeerAddress
  /-- Its priority in elections. -/
  priority : UInt32
deriving DecidableEq, Repr, Inhabited

namespace Peer

/-- The peer at an address: the derived id and priority zero. -/
def ofAddress (a : PeerAddress) : Peer := ⟨PeerId.ofAddress a, a, 0⟩

/-- The same member with another priority. -/
def withPriority (p : Peer) (priority : UInt32) : Peer := { p with priority := priority }

/-- The form `ID|HOST:PORT|priority=N`. -/
def text (p : Peer) : String :=
  p.id.text ++ "|" ++ p.address.text ++ "|priority=" ++ Text.numeral p.priority.toNat

instance : ToString Peer := ⟨text⟩

end Peer

end RaftAdmin
