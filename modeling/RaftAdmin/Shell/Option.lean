import RaftAdmin.Command.Basic

/-!
# Command line options

The options that the command line knows, where each of them may stand, and how help and errors show
them.

## The model

A command line has two sides: what stands before the command, and what stands after it. Two options
may stand on either side, the others after the commands they belong to. Help lists the options of a
command together with the shared ones, position by position, and by name at each position.
-/

namespace RaftAdmin

/-- An option of the command line. -/
inductive CliOption where
  /-- The site file. -/
  | conf
  /-- The log format. -/
  | logFormat
  /-- Peers to ask. -/
  | peers
  /-- The group id. -/
  | groupId
  /-- The service id. -/
  | serviceId
  /-- The address of the member that is to lead. -/
  | address
  /-- A list of values. -/
  | list (option : ListOption)
deriving DecidableEq, Repr

namespace CliOption

/-- The name of the option. -/
def name : CliOption → String
  | conf => "conf"
  | logFormat => "log-format"
  | peers => "peers"
  | groupId => "groupid"
  | serviceId => "serviceid"
  | address => "address"
  | list option => option.text

/-- What the value of the option is called. -/
def valueName : CliOption → String
  | conf => "PATH"
  | logFormat => "LOG_FORMAT"
  | peers => "P0_HOST:P0_PORT,P1_HOST:P1_PORT,..."
  | groupId => "RAFT_GROUP_ID"
  | serviceId => "SERVICE_ID"
  | address => "HOSTNAME:PORT"
  | list .addPeer => "HOST:PORT"
  | list .removePeer => "HOST:PORT"
  | list .addressPriority => "HOST:PORT,PRIORITY"

/-- What the option is for. -/
def description : CliOption → String
  | conf => "Site properties file to load instead of searching the config directories"
  | logFormat => "Log output format [possible values: text, json]"
  | peers => "Comma separated peer addresses"
  | groupId => "Raft group id; discovered from the peers when omitted"
  | serviceId => "Service whose peers and group id are read from the site file"
  | address => "Server to transfer leadership to"
  | list .addPeer => "Peers to add, comma separated or repeated"
  | list .removePeer => "Peers to remove, comma separated or repeated"
  | list .addressPriority => "\x60HOST:PORT,PRIORITY\x60 pairs, \x60;\x60 separated or repeated"

/-- Whether the option may be repeated, and given without a value. -/
def isList : CliOption → Bool
  | list _ => true
  | _ => false

/-- The value of the option as help and errors show it. -/
def shownValue (o : CliOption) : String :=
  if o.isList then " [<" ++ o.valueName ++ ">]" else " <" ++ o.valueName ++ ">"

/-- The option with its value as errors show it. -/
def shown (o : CliOption) : String := "--" ++ o.name ++ o.shownValue

/-- The options that may stand on either side of the command. -/
def shared : List CliOption := [conf, logFormat]

/-- The options that name a group. -/
def ofGroup : List CliOption := [peers, groupId, serviceId]

end CliOption

/-- The options of a task itself. -/
def Task.ownOptions : Task → List CliOption
  | info => []
  | elect _ => [.address]
  | quorumAdd _ => [.list .addPeer]
  | quorumRemove _ => [.list .removePeer]
  | setPriority _ => [.list .addressPriority]

/-- A side of the command line: what stands before the command, or what stands after the name of a
task. -/
abbrev CliSide := Option Task

namespace CliSide

/-- Puts two lists together, position by position, at each position by name. -/
def interleave : List CliOption → List CliOption → List CliOption
  | [], os => os
  | os, [] => os
  | o :: os, p :: ps =>
    if o.name ≤ p.name then o :: p :: interleave os ps else p :: o :: interleave os ps

/-- The options that may stand on a side, as help lists them. -/
def options : CliSide → List CliOption
  | none => CliOption.shared
  | some task => interleave CliOption.shared (task.ownOptions ++ CliOption.ofGroup)

/-- The option of this name that may stand on a side. -/
def option? (side : CliSide) (name : String) : Option CliOption :=
  side.options.find? fun o => o.name = name

/-- The task of this name; a task may only be named before there is one. -/
def task? (side : CliSide) (word : String) : Option Task :=
  if side.isNone then Task.kinds.find? fun t => t.name = word else none

/-- Whether the version may be asked for on a side. -/
def hasVersion (side : CliSide) : Bool := side.isNone

end CliSide

end RaftAdmin
