import RaftAdmin.Command.Options

/-!
# Commands

What an operator can ask for, and how commands introduce themselves.
-/

namespace RaftAdmin

/-- What a command does to the group it works on. -/
inductive Task where
  /-- Shows the group's leader and commit indices. -/
  | info
  /-- Moves leadership to the member at an address. -/
  | elect (address? : Option String)
  /-- Adds the peers at addresses. -/
  | quorumAdd (values : List String)
  /-- Removes the peers at addresses. -/
  | quorumRemove (values : List String)
  /-- Changes priorities of members. -/
  | setPriority (values : List String)
deriving DecidableEq, Repr

/-- A command: a task and the group it is about. -/
structure Command where
  /-- What to do. -/
  task : Task
  /-- To which group. -/
  group : GroupRequest
deriving DecidableEq, Repr

namespace Task

/-- The name an operator calls the task by. -/
def name : Task → String
  | info => "info"
  | elect _ => "elect"
  | quorumAdd _ => "quorumAdd"
  | quorumRemove _ => "quorumRemove"
  | setPriority _ => "setPriority"

/-- What the task does, in one line. -/
def description : Task → String
  | info => "Display the information of a specific raft group"
  | elect _ => "Transfer the group leader to the specified server"
  | quorumAdd _ => "Add peers to a raft group"
  | quorumRemove _ => "Remove peers from a raft group"
  | setPriority _ => "Set priorities of peers of a raft group"

/-- The options of the task itself, as its usage line shows them. -/
def ownUsage : Task → List String
  | info => []
  | elect _ => ["-address <HOSTNAME:PORT>"]
  | quorumAdd _ => ["-addPeer <PEER0_HOST:PEER0_PORT[,PEER1_HOST:PEER1_PORT]>"]
  | quorumRemove _ => ["-removePeer <PEER0_HOST:PEER0_PORT[,PEER1_HOST:PEER1_PORT]>"]
  | setPriority _ =>
    ["-addressPriority <PEER_HOST:PEER_PORT,PRIORITY[;PEER_HOST:PEER_PORT,PRIORITY]>"]

/-- The options that name a group, as usage lines show them. -/
def groupUsage : String :=
  "[-peers <P0_HOST:P0_PORT,P1_HOST:P1_PORT,P2_HOST:P2_PORT>] [-groupid <RAFT_GROUP_ID>] "
    ++ "[-serviceid <SERVICE_ID>]"

/-- The usage line. -/
def usage (t : Task) : String := Text.joinWith " " (t.name :: t.ownUsage ++ [groupUsage])

/-- One task of each kind. -/
def kinds : List Task := [info, elect none, quorumAdd [], quorumRemove [], setPriority []]

/-- The usage lines of all commands. -/
def usages : List String := kinds.map usage

end Task

/-- Checks that a request names peers in some way. -/
def GroupRequest.validate (r : GroupRequest) : Except AdminError Unit :=
  if r.peers?.isNone && r.serviceId?.isNone then .error GroupRequest.noPeersOrService else .ok ()

/-- The address of the member that is to lead. -/
def readTarget (address? : Option String) : Except AdminError PeerAddress :=
  match address? with
  | some address => readAddress address
  | none => .error (.invalidArgument "option -address is required")

/-- Checks what can be checked of a command without asking anybody. -/
def Command.validate (c : Command) : Except AdminError Unit :=
  match c.group.validate with
  | .error e => .error e
  | .ok () =>
    match c.task with
    | .elect address? => (readTarget address?).map fun _ => ()
    | _ => .ok ()

end RaftAdmin
