import RaftAdmin.Rpc.Reply
import RaftAdmin.Script.Connector

/-!
# A model of a cluster

A handful of groups that answer administrative requests as a small healthy cluster would, with
switches for the ways in which real clusters fail, and a record of what was asked of them.

## The model

Requests to a group go to the first entry with its id. A peer answers questions if it can be
reached; a configuration change needs one reachable member of the group as it is before the change.
The commit index counts accepted configuration changes from any starting point, modulo `2 ^ 64`.
-/

namespace RaftAdmin

/-- A group of the cluster. -/
structure GroupState where
  /-- The group with its members. -/
  group : Group
  /-- The leader. -/
  leader? : Option PeerId
  /-- How far all members have committed. -/
  commitIndex : UInt64

namespace GroupState

/-- What a member says about its group. -/
def report (g : GroupState) (me : Peer) : GroupInfoReply where
  reply := .ok
  group := g.group
  role? := some
    { role := if g.leader? = some me.id then .leader else .follower
      self := me.info
      leaderHint? := (g.leader?.bind g.group.peer?).map Peer.info }
  commitInfos := g.group.peers.map fun p => ⟨p.info, g.commitIndex⟩

/-- The group after an accepted configuration change. -/
def reconfigure (g : GroupState) (id : GroupId) (peers : List Peer) : GroupState :=
  let group := Group.of id peers
  ⟨group, g.leader?.filter group.contains, g.commitIndex + 1⟩

end GroupState

/-- A leadership transfer that was requested. -/
structure TransferRequest where
  /-- The group. -/
  group : GroupId
  /-- The member that was to lead. -/
  target : PeerId
  /-- The time allowed, in milliseconds. -/
  timeout : Nat

/-- The state of the cluster, its switches, and what was asked of it. -/
structure Cluster where
  /-- The groups in order of addition. -/
  groups : List GroupState
  /-- Peers that answer nothing. -/
  unreachable : List PeerId
  /-- The exception with which every configuration change is rejected. -/
  configurationRejection? : Option String
  /-- The exception with which every leadership transfer is rejected. -/
  transferRejection? : Option String
  /-- Whether leadership transfers get no answer. -/
  transferFails : Bool
  /-- Every configuration that was submitted, in order. -/
  submitted : List (GroupId × List Peer)
  /-- Every leadership transfer that was requested, in order. -/
  transfers : List TransferRequest
  /-- Every peer that was asked a question, in order. -/
  contacted : List PeerId
  /-- How many connections were ever opened. -/
  connects : Nat
  /-- How many connections are open. -/
  openClients : Nat

namespace Cluster

/-- The cluster without groups. -/
def empty : Cluster := ⟨[], [], none, none, false, [], [], [], 0, 0⟩

instance : Inhabited Cluster := ⟨empty⟩

/-! ### Groups and switches -/

/-- The state of a group. -/
def state? (c : Cluster) (id : GroupId) : Option GroupState :=
  c.groups.find? fun g => g.group.id = id

/-- Changes the first of some groups with an id. -/
def updateFirst (id : GroupId) (f : GroupState → GroupState) : List GroupState → List GroupState
  | [] => []
  | g :: gs => if g.group.id = id then f g :: gs else g :: updateFirst id f gs

/-- Changes a group. -/
def update (c : Cluster) (id : GroupId) (f : GroupState → GroupState) : Cluster :=
  { c with groups := updateFirst id f c.groups }

/-- The group with its members. -/
def group? (c : Cluster) (id : GroupId) : Option Group := (c.state? id).map (·.group)

/-- The leader of a group. -/
def leader? (c : Cluster) (id : GroupId) : Option PeerId := (c.state? id).bind (·.leader?)

/-- Adds a group; only a member can be its leader. -/
def addGroup (c : Cluster) (group : Group) (leader? : Option PeerId) : Cluster :=
  { c with groups := c.groups ++ [⟨group, leader?.filter group.contains, 0⟩] }

/-- Makes a peer unreachable. -/
def setUnreachable (c : Cluster) (id : PeerId) : Cluster :=
  { c with unreachable := id :: c.unreachable }

/-- Makes every configuration change fail. -/
def rejectConfiguration (c : Cluster) (exception : String) : Cluster :=
  { c with configurationRejection? := some exception }

/-- Makes every leadership transfer fail. -/
def rejectTransfer (c : Cluster) (exception : String) : Cluster :=
  { c with transferRejection? := some exception }

/-- Makes leadership transfers get no answer. -/
def failTransfer (c : Cluster) : Cluster := { c with transferFails := true }

/-- Sets the commit index of a group. -/
def setCommitIndex (c : Cluster) (id : GroupId) (index : UInt64) : Cluster :=
  c.update id fun g => { g with commitIndex := index }

/-! ### Questions -/

/-- Whether a peer can be reached. -/
def isReachable (c : Cluster) (id : PeerId) : Bool := id ∉ c.unreachable

/-- The failure of a peer that cannot be reached. -/
def refused (id : PeerId) : RpcFailure := .plain ("connection refused by " ++ id.text)

/-- Records that a peer was asked. -/
def contact (c : Cluster) (id : PeerId) : Cluster := { c with contacted := c.contacted ++ [id] }

/-- The groups that a peer belongs to. -/
def groupsOf (c : Cluster) (id : PeerId) : List GroupId :=
  (c.groups.filter fun g => g.group.contains id).map (·.group.id)

/-- The message about a group that does not exist. -/
def noGroup (id : GroupId) : String :=
  "GroupMismatchException: group " ++ id.text ++ " not found"

/-- The message about a peer that is no member. -/
def noMember (peer : PeerId) (id : GroupId) : String :=
  "GroupMismatchException: " ++ peer.text ++ " is not a member of " ++ id.text

/-- What a peer that can be reached says about a group. -/
def infoFrom (c : Cluster) (peer : PeerId) (id : GroupId) : GroupInfoReply :=
  match c.state? id with
  | none => .failure id (noGroup id)
  | some g =>
    match g.group.peer? peer with
    | none => .failure id (noMember peer id)
    | some me => g.report me

/-! ### Changes -/

/-- The event for a changed group. -/
def changed (group : Group) : LogEvent :=
  .debug .clusterModel
    ("Group " ++ group.id.text ++ " now has " ++ Text.numeral group.peers.length ++ " peers")

/-- A configuration change. -/
def configure (c : Cluster) (id : GroupId) (peers : List Peer) : Answer Cluster ClientReply :=
  let c := { c with submitted := c.submitted ++ [(id, peers)] }
  match c.configurationRejection? with
  | some exception => ⟨.ok (.failure exception), c, []⟩
  | none =>
    match c.state? id with
    | none => ⟨.ok (.failure (noGroup id)), c, []⟩
    | some g =>
      if g.group.peers.all fun p => !c.isReachable p.id then
        ⟨.error (.plain ("no peer of group " ++ id.text ++ " is reachable")), c, []⟩
      else
        ⟨.ok .ok, c.update id fun g => g.reconfigure id peers, [changed (.of id peers)]⟩

/-- A leadership transfer. -/
def transfer (c : Cluster) (id : GroupId) (target : PeerId) (timeout : Nat) :
    Answer Cluster ClientReply :=
  let c := { c with transfers := c.transfers ++ [⟨id, target, timeout⟩] }
  if c.transferFails then
    ⟨.error (.plain ("transfer of group " ++ id.text ++ " timed out")), c, []⟩
  else
    match c.transferRejection? with
    | some exception => ⟨.ok (.failure exception), c, []⟩
    | none =>
      match c.state? id with
      | none => ⟨.ok (.failure (noGroup id)), c, []⟩
      | some g =>
        if g.group.contains target then
          ⟨.ok .ok, c.update id fun g => { g with leader? := some target }, []⟩
        else
          ⟨.ok (.failure ("TransferLeadershipException: " ++ target.text ++ " is not a member of "
            ++ id.text)), c, []⟩

/-! ### Connections -/

/-- The cluster as commands see it. -/
def connector : Connector Cluster where
  connect _ c :=
    ⟨.ok (), { c with connects := c.connects + 1, openClients := c.openClients + 1 }, []⟩
  disconnect _ c := { c with openClients := c.openClients - 1 }
  listGroups _ peer c :=
    ⟨if c.isReachable peer.id then .ok (c.groupsOf peer.id) else .error (refused peer.id),
      c.contact peer.id, []⟩
  groupInfo _ peer id c :=
    ⟨if c.isReachable peer.id then .ok (c.infoFrom peer.id id) else .error (refused peer.id),
      c.contact peer.id, []⟩
  setConfiguration group peers c := c.configure group.id peers
  transferLeadership group target timeout c := c.transfer group.id target timeout

end Cluster

end RaftAdmin
