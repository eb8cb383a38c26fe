import RaftAdmin.Config.Basic
import RaftAdmin.Error
import RaftAdmin.Group.Basic
import RaftAdmin.Log.Event

/-!
# Group requests

An operator names a group by peers to ask, by a group id, by a service id, or by several of these.
This module reads the request: whom to ask, and which group id to ask for.

## The model

Peers of the command line win over those configured for the service. A group id of the command line
must be valid; one configured for the service is only a hint, and an unusable one is passed over. A
read that never ends is not one that fails: it is not passed over, and nothing comes after it.
Reading the request makes the configuration list the keys of the service.
-/

namespace RaftAdmin

/-- The options that name a group. -/
structure GroupRequest where
  /-- Peers to ask. -/
  peers? : Option String
  /-- The group id. -/
  groupId? : Option String
  /-- The service whose peers and group id are configured. -/
  serviceId? : Option String
deriving DecidableEq, Repr, Inhabited

/-- Where the group id to ask for comes from. -/
inductive Seed where
  /-- The operator gave it. -/
  | explicit (id : GroupId)
  /-- It is configured for the service. -/
  | configured (id : GroupId)
  /-- It is not known and has to be discovered. -/
  | fallback

/-- The group id, if it is known. -/
def Seed.id? : Seed → Option GroupId
  | explicit id => some id
  | configured id => some id
  | fallback => none

namespace GroupRequest

/-- The error of a request that names no peers in any way. -/
def noPeersOrService : AdminError :=
  .invalidArgument "should provide at least one of [serviceid] and [peers]"

/-- The error of a request whose list of peers is empty. -/
def noAddress : AdminError := .invalidArgument "no peer address given"

/-- The list of peers to ask as a text. -/
def peerText (r : GroupRequest) (c : Configuration) : Except AdminError String × Configuration :=
  match r.peers?, r.serviceId? with
  | some peers, _ => (.ok peers, c)
  | none, some service =>
    let k := c.templateKey .servicePeers service
    let c := c.afterTemplateKey .servicePeers service
    ((c.get k).mapError .config, c.afterReading k)
  | none, none => (.error noPeersOrService, c)

/-- The addresses in a list of peers, which may not be empty. -/
def addressesOf (list : String) : Except AdminError (List PeerAddress) :=
  match readPeerList list with
  | .error e => .error e
  | .ok addresses => if addresses.isEmpty then .error noAddress else .ok addresses

/-- The addresses to ask, and the configuration after reading them. -/
def addresses (r : GroupRequest) (c : Configuration) :
    Except AdminError (List PeerAddress) × Configuration :=
  match r.peerText c with
  | (.error e, c) => (.error e, c)
  | (.ok list, c) => (addressesOf list, c)

/-- The event for a configured group id that is none. -/
def ignoring (k : PropertyKey) (raw : String) (e : GroupId.ReadError) : LogEvent :=
  .debug .resolution ("Ignoring " ++ k.name ++ " = \"" ++ raw ++ "\": " ++ e.message)

/-- The event for a service without a group id. -/
def unconfigured (service : String) (e : ConfigError) : LogEvent :=
  .debug .resolution ("No group id configured for service " ++ service ++ ": " ++ e.message)

/-- The group id of a service, with what is logged about it. -/
def serviceSeed (service : String) (k : PropertyKey) (c : Configuration) :
    Except AdminError Seed × List LogEvent :=
  match c.get k with
  | .error (.endless name) => (.error (.config (.endless name)), [])
  | .error e => (.ok .fallback, [unconfigured service e])
  | .ok raw =>
    match GroupId.ofString raw with
    | .ok id => (.ok (.configured id), [])
    | .error e => (.ok .fallback, [ignoring k raw e])

/-- The group id to ask for, the configuration after reading it, and what is logged about it. -/
def seed (r : GroupRequest) (c : Configuration) :
    Except AdminError Seed × Configuration × List LogEvent :=
  match r.groupId?, r.serviceId? with
  | some raw, _ =>
    match GroupId.ofString raw with
    | .ok id => (.ok (.explicit id), c, [])
    | .error e =>
      (.error (.invalidArgument ("invalid group id \"" ++ raw ++ "\": " ++ e.message)), c, [])
  | none, none => (.ok .fallback, c, [])
  | none, some service =>
    let k := c.templateKey .serviceGroupId service
    let c := c.afterTemplateKey .serviceGroupId service
    let (found, events) := serviceSeed service k c
    (found, c.afterReading k, events)

end GroupRequest

end RaftAdmin
