import RaftAdmin.Group.Basic

/-!
# Replies of the cluster

What a peer answers to the requests of the program.
-/

namespace RaftAdmin

/-- The outcome of a request. -/
structure ClientReply where
  /-- Whether the request was carried out. -/
  success : Bool
  /-- Why it was not. -/
  exception? : Option String
  /-- Whether the peer declined because it does not lead. -/
  notLeader : Bool
  /-- The leader, as far as the peer knows. -/
  leaderHint? : Option PeerAddress
deriving DecidableEq, Repr, Inhabited

namespace ClientReply

/-- The request was carried out. -/
def ok : ClientReply := ⟨true, none, false, none⟩

/-- The request failed. -/
def failure (exception : String) : ClientReply := ⟨false, some exception, false, none⟩

/-- The peer does not lead and did not carry the request out. -/
def declined (hint? : Option PeerAddress) : ClientReply :=
  ⟨false, some "NotLeaderException: request was sent to a non-leader peer", true, hint?⟩

/-- Why the request failed. -/
def errorMessage (r : ClientReply) : String := r.exception?.getD "reply failed"

end ClientReply

/-- The part a server plays in its group. -/
inductive Role where
  /-- It leads. -/
  | leader
  /-- It follows the leader. -/
  | follower
  /-- It asks to be elected. -/
  | candidate
  /-- It listens without a vote. -/
  | listener
deriving DecidableEq, Repr

/-- Id and address of a server. -/
structure PeerInfo where
  /-- The id. -/
  id : PeerId
  /-- The address. -/
  address : PeerAddress
deriving DecidableEq, Repr, Inhabited

/-- Id and address of a peer. -/
def Peer.info (p : Peer) : PeerInfo := ⟨p.id, p.address⟩

/-- The form `ID(HOST:PORT)`. -/
def PeerInfo.text (i : PeerInfo) : String := i.id.text ++ "(" ++ i.address.text ++ ")"

/-- The role of the answering server. -/
structure RoleInfo where
  /-- The role. -/
  role : Role
  /-- The server itself. -/
  self : PeerInfo
  /-- The leader, as far as the server knows. -/
  leaderHint? : Option PeerInfo
deriving DecidableEq, Repr

/-- The leader: the server itself if it leads, else the one it knows of. -/
def RoleInfo.leader? (r : RoleInfo) : Option PeerInfo :=
  match r.role with
  | .leader => some r.self
  | _ => r.leaderHint?

/-- How far a server has committed. -/
structure CommitInfo where
  /-- The server. -/
  server : PeerInfo
  /-- Its commit index. -/
  commitIndex : UInt64
deriving DecidableEq, Repr

/-- What a peer knows about a group. -/
structure GroupInfoReply where
  /-- Whether it knows anything. -/
  reply : ClientReply
  /-- The group with its members. -/
  group : Group
  /-- The role of the answering server. -/
  role? : Option RoleInfo
  /-- The commit indices of the members. -/
  commitInfos : List CommitInfo
deriving DecidableEq

instance : Inhabited GroupInfoReply := ⟨⟨default, default, none, []⟩⟩

/-- The answer of a peer that knows nothing about the group. -/
def GroupInfoReply.failure (id : GroupId) (exception : String) : GroupInfoReply :=
  ⟨.failure exception, .of id [], none, []⟩

end RaftAdmin
