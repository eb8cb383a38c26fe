import RaftAdmin.Config.Error
import RaftAdmin.Group.Id
import RaftAdmin.Peer.Address
import RaftAdmin.Rpc.Failure

/-!
# Errors of a command

Everything a command can fail with, its message, and the exit code that scripts branch on.
-/

namespace RaftAdmin

/-- The exit code of a command that did what it was asked to. -/
def exitOk : Int := 0

/-- The exit code of a failed command. -/
def exitError : Int := -1

/-- The exit code of a command whose list option was given no values. -/
def exitMissingInput : Int := -2

/-- The two questions a resolution asks of peers. -/
inductive Inquiry where
  /-- Which groups a peer belongs to. -/
  | listGroups
  /-- What a peer knows about one group. -/
  | groupInfo
deriving DecidableEq, Repr

/-- What messages call the question. -/
def Inquiry.text : Inquiry → String
  | listGroups => "list groups"
  | groupInfo => "group info"

/-- The options that take lists of values. -/
inductive ListOption where
  /-- Peers to add. -/
  | addPeer
  /-- Peers to remove. -/
  | removePeer
  /-- Pairs of an address and a priority. -/
  | addressPriority
deriving DecidableEq, Repr

/-- The name of the option. -/
def ListOption.text : ListOption → String
  | addPeer => "addPeer"
  | removePeer => "removePeer"
  | addressPriority => "addressPriority"

/-- Why a command failed. -/
inductive AdminError where
  /-- A text is not a peer address, for a reason that is told in words. -/
  | invalidAddress (address reason : String)
  /-- Several groups are visible and none was chosen. -/
  | ambiguousGroup (ids : List GroupId)
  /-- Every candidate failed or had nothing to say to a question. -/
  | noReachablePeer (question : String) (peers : List String)
  /-- The requested peer is not a member of the group. -/
  | peerNotInQuorum (address : String) (quorum : List String)
  /-- The cluster answered with a failure. -/
  | clusterRejected (context message : String)
  /-- A list option was given no values. -/
  | missingInput (option : String)
  /-- The arguments make no sense. -/
  | invalidArgument (message : String)
  /-- A property could not be read. -/
  | config (cause : ConfigError)
  /-- The operator's stream could not be written to. -/
  | output (cause : String)
  /-- A call got no answer. -/
  | internal (cause : RpcFailure)

namespace AdminError

/-- The name of the kind of error, as logs show it. -/
def kind : AdminError → String
  | invalidAddress _ _ => "InvalidAddress"
  | ambiguousGroup _ => "AmbiguousGroup"
  | noReachablePeer _ _ => "NoReachablePeer"
  | peerNotInQuorum _ _ => "PeerNotInQuorum"
  | clusterRejected _ _ => "ClusterRejected"
  | missingInput _ => "MissingInput"
  | invalidArgument _ => "InvalidArgument"
  | config _ => "Config"
  | output _ => "Output"
  | internal _ => "Internal"

/-- The exit code of a command that fails with this error. -/
def exitCode : AdminError → Int
  | missingInput _ => exitMissingInput
  | _ => exitError

/-- The message in fragments, as it goes to the operator's stream. -/
def fragments : AdminError → List String
  | invalidAddress address reason => ["invalid peer address \"", address, "\": ", reason]
  | ambiguousGroup ids =>
    ["there are more than one group, you should specify one with -groupid: ",
      Text.listing (ids.map GroupId.text)]
  | noReachablePeer question peers =>
    ["no reachable peer answered ", question, " (tried ", Text.listing peers, ")"]
  | peerNotInQuorum address quorum =>
    ["<", address, "> is not part of the quorum ", Text.listing quorum]
  | clusterRejected context _ => [context]
  | missingInput option => ["option -", option, " requires at least one value"]
  | invalidArgument message => [message]
  | config cause => cause.fragments
  | output cause => ["failed to write command output: ", cause]
  | internal cause => [cause.text]

/-- The message for the operator. -/
def message (e : AdminError) : String := String.join e.fragments

end AdminError

/-- Reads an address an operator typed. -/
def readAddress (s : String) : Except AdminError PeerAddress :=
  match PeerAddress.read s with
  | .ok a => .ok a
  | .error flaw => .error (.invalidAddress (Text.trim s) flaw.message)

/-- Reads a list of addresses separated by commas; blank entries are skipped and the first entry
that is no address is the error. -/
def readPeerList (s : String) : Except AdminError (List PeerAddress) :=
  (Text.nonblankParts ',' s).mapM readAddress

end RaftAdmin
