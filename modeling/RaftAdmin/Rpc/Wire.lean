import RaftAdmin.Json.Value
import RaftAdmin.Rpc.Reply

/-!
# The wire format

How peers, groups and replies are written as JSON, and how they are read.

## The model

A record is an object with one member per field. Members of other names are ignored, a repeated
field is an error, and a field without a default is required; `null` stands for a missing value of
an optional field only. A record may also be given as an array of its fields in order, of which
trailing ones with a default may be missing. The reply about a group has the fields of a client
reply beside its own, is an object only, and its further members must be values that can be kept.
-/

namespace RaftAdmin.Wire

open Json (Value)

/-! ### Fields -/

/-- The value of a field, if it occurs; nothing if it is repeated. -/
def field (members : List (String × Value)) (name : String) : Option (Option Value) :=
  match members.filter fun m => m.1 = name with
  | [] => some none
  | [m] => some (some m.2)
  | _ => none

/-- As many values as there are names, from an array of at most that many. -/
def positional : List String → List Value → Option (List (Option Value))
  | [], [] => some []
  | [], _ :: _ => none
  | _ :: names, [] => (positional names []).map (none :: ·)
  | _ :: names, v :: vs => (positional names vs).map (some v :: ·)

/-- The values of the fields of a record. -/
def fields (names : List String) (v : Value) : Option (List (Option Value)) :=
  match v with
  | .array items => positional names items
  | _ =>
    match v.toMembers? with
    | some members => names.mapM (field members)
    | none => none

/-- Reads a field without a default. -/
def required {α : Type} (read : Value → Option α) : Option Value → Option α
  | some v => read v
  | none => none

/-- Reads a field with a default. -/
def withDefault {α : Type} (a : α) (read : Value → Option α) : Option Value → Option α
  | some v => read v
  | none => some a

/-- Reads a field that may be missing or `null`. -/
def optional {α : Type} (read : Value → Option α) : Option Value → Option (Option α)
  | some .null => some none
  | some v => (read v).map some
  | none => some none

/-- Reads an array. -/
def items {α : Type} (read : Value → Option α) (v : Value) : Option (List α) :=
  match v.toItems? with
  | some vs => vs.mapM read
  | none => none

/-! ### Reading -/

/-- Reads an address. -/
def readAddress (v : Value) : Option PeerAddress :=
  match v.toText? with
  | some s => (PeerAddress.read s).toOption
  | none => none

/-- Reads a peer id. -/
def readPeerId (v : Value) : Option PeerId := v.toText?.map PeerId.mk

/-- Reads a group id; nothing may stand around it. -/
def readGroupId (v : Value) : Option GroupId :=
  match v.toText? with
  | some s => (GroupId.read s).toOption
  | none => none

/-- Reads a peer. -/
def readPeer (v : Value) : Option Peer := do
  let [id, address, priority] ← fields ["id", "address", "priority"] v | none
  let id ← required readPeerId id
  let address ← required readAddress address
  let priority ← withDefault 0 (Value.toNat? UInt32.size) priority
  return ⟨id, address, UInt32.ofNat priority⟩

/-- Reads a group; later peers with an id that occurred are dropped. -/
def readGroup (v : Value) : Option Group := do
  let [id, peers] ← fields ["id", "peers"] v | none
  let id ← required readGroupId id
  let peers ← withDefault [] (items readPeer) peers
  return .of id peers

/-- The fields of a client reply. -/
def replyFields : List String := ["success", "exception", "not_leader", "leader_hint"]

/-- Reads a client reply from its fields. -/
def readReplyFields : List (Option Value) → Option ClientReply
  | [success, exception, notLeader, hint] => do
    let success ← required Value.toBool? success
    let exception ← optional Value.toText? exception
    let notLeader ← withDefault false Value.toBool? notLeader
    let hint ← optional readAddress hint
    return ⟨success, exception, notLeader, hint⟩
  | _ => none

/-- Reads a client reply. -/
def readReply (v : Value) : Option ClientReply := do readReplyFields (← fields replyFields v)

/-- The name of a role. -/
def roleName : Role → String
  | .leader => "LEADER"
  | .follower => "FOLLOWER"
  | .candidate => "CANDIDATE"
  | .listener => "LISTENER"

/-- The role of this name. -/
def roleNamed? (name : String) : Option Role :=
  [Role.leader, .follower, .candidate, .listener].find? fun r => roleName r = name

/-- Reads a role: its name, or an object with its name and `null`. -/
def readRole : Value → Option Role
  | .text (some name) => roleNamed? name
  | .object [(some name, .null)] => roleNamed? name
  | _ => none

/-- Reads a server. -/
def readPeerInfo (v : Value) : Option PeerInfo := do
  let [id, address] ← fields ["id", "address"] v | none
  return ⟨← required readPeerId id, ← required readAddress address⟩

/-- Reads a role with the server that plays it. -/
def readRoleInfo (v : Value) : Option RoleInfo := do
  let [role, self, leader] ← fields ["role", "self", "leader"] v | none
  let role ← required readRole role
  let self ← required readPeerInfo self
  let leader ← optional readPeerInfo leader
  return ⟨role, self, leader⟩

/-- Reads a commit index with its server. -/
def readCommitInfo (v : Value) : Option CommitInfo := do
  let [server, index] ← fields ["server", "commit_index"] v | none
  let server ← required readPeerInfo server
  let index ← required (Value.toNat? UInt64.size) index
  return ⟨server, UInt64.ofNat index⟩

/-- The fields of a reply about a group beside those of a client reply. -/
def infoFields : List String := ["group", "role", "commit_infos"]

/-- How deep the further members of a reply about a group may nest. -/
def maxNesting : Nat := 126

/-- Reads a reply about a group. -/
def readGroupInfo (v : Value) : Option GroupInfoReply := do
  let members ← v.toMembers?
  if members.any fun m => m.1 ∉ infoFields && !m.2.isPlain maxNesting then none
  else
    let [group, role, commits] ← infoFields.mapM (field members) | none
    let reply ← readReplyFields (← replyFields.mapM (field members))
    let group ← required readGroup group
    let role ← optional readRoleInfo role
    let commits ← withDefault [] (items readCommitInfo) commits
    return ⟨reply, group, role, commits⟩

/-- Reads a list of group ids. -/
def readGroupList (v : Value) : Option (List GroupId) := do
  let [ids] ← fields ["group_ids"] v | none
  required (items readGroupId) ids

/-! ### Writing -/

/-- A member that is left out if it has no value. -/
def optionalMember (name : String) : Option Value → List (String × Value)
  | some v => [(name, v)]
  | none => []

/-- Writes an address. -/
def writeAddress (a : PeerAddress) : Value := .ofString a.text

/-- Writes a peer id. -/
def writePeerId (id : PeerId) : Value := .ofString id.text

/-- Writes a group id. -/
def writeGroupId (id : GroupId) : Value := .ofString id.text

/-- Writes a peer. -/
def writePeer (p : Peer) : Value :=
  .ofMembers [("id", writePeerId p.id), ("address", writeAddress p.address),
    ("priority", .ofNat p.priority.toNat)]

/-- Writes a group. -/
def writeGroup (g : Group) : Value :=
  .ofMembers [("id", writeGroupId g.id), ("peers", .array (g.peers.map writePeer))]

/-- The members of a client reply. -/
def replyMembers (r : ClientReply) : List (String × Value) :=
  [("success", Value.bool r.success)]
    ++ optionalMember "exception" (r.exception?.map Value.ofString)
    ++ optionalMember "not_leader" (if r.notLeader then some (.bool true) else none)
    ++ optionalMember "leader_hint" (r.leaderHint?.map writeAddress)

/-- Writes a client reply. -/
def writeReply (r : ClientReply) : Value := .ofMembers (replyMembers r)

/-- Writes a role. -/
def writeRole (r : Role) : Value := .ofString (roleName r)

/-- Writes a server. -/
def writePeerInfo (i : PeerInfo) : Value :=
  .ofMembers [("id", writePeerId i.id), ("address", writeAddress i.address)]

/-- Writes a role with the server that plays it. -/
def writeRoleInfo (r : RoleInfo) : Value :=
  .ofMembers ([("role", writeRole r.role), ("self", writePeerInfo r.self)]
    ++ optionalMember "leader" (r.leaderHint?.map writePeerInfo))

/-- Writes a commit index with its server. -/
def writeCommitInfo (i : CommitInfo) : Value :=
  .ofMembers [("server", writePeerInfo i.server), ("commit_index", .ofNat i.commitIndex.toNat)]

/-- Writes a reply about a group. -/
def writeGroupInfo (r : GroupInfoReply) : Value :=
  .ofMembers (replyMembers r.reply ++ [("group", writeGroup r.group)]
    ++ optionalMember "role" (r.role?.map writeRoleInfo)
    ++ [("commit_infos", .array (r.commitInfos.map writeCommitInfo))])

/-- Writes the body of a configuration change. -/
def writeConfiguration (peers : List Peer) : Value :=
  .ofMembers [("peers", .array (peers.map writePeer))]

/-- Writes the body of a leadership transfer. -/
def writeTransfer (target : PeerId) (timeout : Nat) : Value :=
  .ofMembers [("target", writePeerId target), ("timeout_ms", .ofNat timeout)]

end RaftAdmin.Wire
