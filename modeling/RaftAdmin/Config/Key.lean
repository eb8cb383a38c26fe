import RaftAdmin.Text.Split

/-!
# Property keys

A property key is a name with an optional default and a description. Some keys are declared; others
belong to a family with one key per service id; the rest exist because a site file mentions them.

## The model

A family is a template: the names that consist of a front, a nonempty service id and a back. Front
and back may not overlap in a name of the family, so `matches` undoes `keyName`.
-/

namespace RaftAdmin

/-- A named property. -/
structure PropertyKey where
  /-- The name, which alone identifies the key. -/
  name : String
  /-- The value when no layer supplies one. -/
  default? : Option String
  /-- What the property is for. -/
  description : String
deriving DecidableEq, Repr, Inhabited

namespace PropertyKey

/-- A key that exists because it was mentioned. -/
def custom (name : String) : PropertyKey := ⟨name, none, ""⟩

/-- The base directory. -/
def home : PropertyKey :=
  ⟨"quorumsh.home", some ".", "Base directory other defaults are relative to."⟩

/-- The directory searched for the site file. -/
def confDir : PropertyKey :=
  ⟨"quorumsh.conf.dir", some "$\x7bquorumsh.home\x7d/conf",
    "Directory searched for the site properties file."⟩

/-- The URL scheme of the cluster's endpoint. -/
def rpcScheme : PropertyKey :=
  ⟨"quorumsh.rpc.scheme", some "http", "URL scheme used to reach the cluster RPC endpoint."⟩

/-- The time a single call may take. -/
def rpcRequestTimeout : PropertyKey :=
  ⟨"quorumsh.rpc.request.timeout.ms", some "15000",
    "Timeout of a single cluster RPC, in milliseconds."⟩

/-- The pause before a leadership transfer. -/
def electSettleDelay : PropertyKey :=
  ⟨"quorumsh.elect.settle.delay.ms", some "3000",
    "Wait between applying new priorities and requesting a leadership transfer."⟩

/-- The time the cluster may take for a leadership transfer. -/
def electTransferTimeout : PropertyKey :=
  ⟨"quorumsh.elect.transfer.timeout.ms", some "60000",
    "Timeout handed to the cluster for a leadership transfer, in milliseconds."⟩

/-- The log filter. -/
def loggerLevel : PropertyKey :=
  ⟨"quorumsh.logger.level", some "warn", "Log filter used when RUST_LOG is not set."⟩

/-- The log format. -/
def loggerFormat : PropertyKey :=
  ⟨"quorumsh.logger.format", some "text", "Log output format: text or json."⟩

/-- Every declared key. -/
def declared : List PropertyKey :=
  [home, confDir, rpcScheme, rpcRequestTimeout, electSettleDelay, electTransferTimeout,
    loggerLevel, loggerFormat]

end PropertyKey

/-- A family of keys with one key per service id. -/
structure KeyTemplate where
  /-- What a name of the family starts with. -/
  front : String
  /-- What a name of the family ends with. -/
  back : String
  /-- The description of every key of the family. -/
  description : String
deriving DecidableEq, Repr

namespace KeyTemplate

/-- The name of the key for a service id. -/
def keyName (t : KeyTemplate) (service : String) : String := t.front ++ service ++ t.back

/-- The service id in a name of the family: what stands between front and back, if anything. -/
def service? (t : KeyTemplate) (name : String) : Option String :=
  match Text.dropFront? t.front.toList name.toList with
  | none => none
  | some rest =>
    match Text.dropBack? t.back.toList rest with
    | none => none
    | some service => if service.isEmpty then none else some (String.ofList service)

/-- Whether a name belongs to the family. -/
def isMatch (t : KeyTemplate) (name : String) : Bool := (t.service? name).isSome

/-- The key of the family with this name. -/
def instantiate (t : KeyTemplate) (name : String) : PropertyKey := ⟨name, none, t.description⟩

/-- The peers of a service. -/
def servicePeers : KeyTemplate :=
  ⟨"quorumsh.", ".peers", "Comma separated HOST:PORT list of the service's raft peers."⟩

/-- The group id of a service. -/
def serviceGroupId : KeyTemplate :=
  ⟨"quorumsh.", ".groupid", "Raft group id (UUID) of the service."⟩

/-- Every family. -/
def all : List KeyTemplate := [servicePeers, serviceGroupId]

end KeyTemplate

end RaftAdmin
