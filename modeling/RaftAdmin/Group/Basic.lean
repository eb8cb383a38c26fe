import RaftAdmin.Group.Id
import RaftAdmin.Peer.Basic

/-!
# Groups

A group is a replica set: an id and its members in order. No two members share an id.

## The model

`Group.of` builds a group from any list of peers and keeps the first peer of each id. Distinctness
of the members' ids is part of the type, so that it holds of every group, wherever it comes from.
-/

namespace RaftAdmin

/-- The peers without those whose id occurs before them. -/
def firstById : List Peer → List Peer
  | [] => []
  | p :: ps => p :: (firstById ps).filter fun q => q.id ≠ p.id

/-- The ids of `firstById ps` are pairwise distinct. -/
theorem pairwise_firstById (ps : List Peer) :
    (firstById ps).Pairwise fun p q => p.id ≠ q.id := by
  induction ps with
  | nil => exact .nil
  | cons p ps ih =>
    refine .cons (fun q hq => ?_) (ih.filter _)
    exact (of_decide_eq_true (List.mem_filter.1 hq).2).symm

/-- A group id with its members. -/
structure Group where
  /-- Which group it is. -/
  id : GroupId
  /-- Its members in order. -/
  peers : List Peer
  /-- No two members share an id. -/
  distinct : peers.Pairwise fun p q => p.id ≠ q.id
deriving DecidableEq

namespace Group

/-- The group of these peers; of several peers with one id the first is kept. -/
def of (id : GroupId) (peers : List Peer) : Group := ⟨id, firstById peers, pairwise_firstById peers⟩

instance : Inhabited Group := ⟨of default []⟩

/-- Whether the group has no members. -/
def isEmpty (g : Group) : Bool := g.peers.isEmpty

/-- The member with this id. -/
def peer? (g : Group) (id : PeerId) : Option Peer := g.peers.find? fun p => p.id = id

/-- Whether a member has this id. -/
def contains (g : Group) (id : PeerId) : Bool := (g.peer? id).isSome

/-- The member that an address denotes: the first that listens there or has the derived id. -/
def peerAt? (g : Group) (a : PeerAddress) : Option Peer :=
  g.peers.find? fun p => p.address = a || p.id = PeerId.ofAddress a

end Group

end RaftAdmin
