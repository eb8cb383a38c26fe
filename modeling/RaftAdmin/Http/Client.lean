import RaftAdmin.Config.Typed
import RaftAdmin.Http.Submission

/-!
# The cluster over HTTP

Every peer serves a small interface below `/v1`: `GET /groups` lists its groups, `GET /groups/ID`
says what it knows about one, and `POST` to `configuration` or `leadership` below a group changes
it. Questions go to the peer they are meant for, changes to the leader.
-/

namespace RaftAdmin.Http

/-- How peers are reached. -/
structure Settings where
  /-- The scheme of all URLs. -/
  scheme : String
  /-- The milliseconds that a response may take. -/
  requestTimeout : Nat
deriving DecidableEq, Repr, Inhabited

/-- The settings of a configuration, and the configuration after reading them. -/
def Settings.read (c : Configuration) : Except ConfigError Settings × Configuration :=
  let scheme := c.get .rpcScheme
  let c := c.afterReading .rpcScheme
  match scheme with
  | .error e => (.error e, c)
  | .ok scheme => ((c.getDuration .rpcRequestTimeout).map (⟨scheme, ·⟩),
      c.afterReading .rpcRequestTimeout)

/-- The path of the list of groups. -/
def groupsPath : String := "/groups"

/-- The path of a group. -/
def groupPath (id : GroupId) : String := groupsPath ++ "/" ++ id.text

/-- The path that changes a group's configuration. -/
def configurationPath (id : GroupId) : String := groupPath id ++ "/configuration"

/-- The path that moves a group's leadership. -/
def leadershipPath (id : GroupId) : String := groupPath id ++ "/leadership"

/-- The event for a new connection. -/
def connected (group : Group) : LogEvent :=
  .debug .http
    ("HTTP cluster client for group " ++ group.id.text ++ " ("
      ++ Text.numeral group.peers.length ++ " peers)")

/-- Asks a peer. -/
def ask {τ α : Type} (settings : Settings) (t : Transport τ) (read : Json.Value → Option α)
    (address : PeerAddress) (path : String) (w : τ) : Answer τ α :=
  let r : Request := ⟨.get, settings.scheme, address, path, none, settings.requestTimeout⟩
  let (response, w) := t.send r w
  ⟨decode read r response, w, []⟩

/-- Sends a change to the leader of a group. -/
def change {τ : Type} (settings : Settings) (t : Transport τ) (group : Group) (path : String)
    (body : Json.Value) (timeout : Nat) (w : τ) : Answer τ ClientReply :=
  submit t group.id path
    (fun a => ⟨.post, settings.scheme, a, path, some body, timeout⟩) (fun _ => rfl)
    (.start group) w

/-- The cluster behind a transport, as commands see it. -/
def connector {τ : Type} (settings : Settings) (t : Transport τ) : Connector τ where
  connect group w := ⟨.ok (), w, [connected group]⟩
  disconnect _ w := w
  listGroups _ peer w := ask settings t Wire.readGroupList peer.address groupsPath w
  groupInfo _ peer id w := ask settings t Wire.readGroupInfo peer.address (groupPath id) w
  setConfiguration group peers w :=
    change settings t group (configurationPath group.id) (Wire.writeConfiguration peers)
      settings.requestTimeout w
  transferLeadership group target timeout w :=
    change settings t group (leadershipPath group.id)
      (Wire.writeTransfer target (min timeout (UInt64.size - 1)))
      (max settings.requestTimeout timeout) w

end RaftAdmin.Http
