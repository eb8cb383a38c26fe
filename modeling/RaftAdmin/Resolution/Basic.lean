import RaftAdmin.Resolution.Request
import RaftAdmin.Retry
import RaftAdmin.Script.Act

/-!
# Resolving a group

A command works on a group as the cluster itself reports it. Resolving a request finds the group's
id, if it is not given, and its members by asking the candidates: the peers the request names.

## The model

The candidates are asked in order and each at most once per question. Without a group id they are
asked for the groups they belong to, and the first nonempty answer must name exactly one. Then they
are asked about the group, and the first successful answer with members is taken. Candidates that
are not among the members are kept as contacts.
-/

namespace RaftAdmin

/-- A group as the cluster reports it. -/
structure ResolvedGroup where
  /-- The group with its members. -/
  group : Group
  /-- The candidates that are no members, in the order of the request. -/
  contacts : List Peer
  /-- The answer the members were taken from. -/
  info : GroupInfoReply

namespace ResolvedGroup

/-- The members, then the contacts. -/
def contactPeers (r : ResolvedGroup) : List Peer := r.group.peers ++ r.contacts

/-- The group to connect to: all members and contacts. -/
def contactGroup (r : ResolvedGroup) : Group := .of r.group.id r.contactPeers

end ResolvedGroup

namespace Resolution

/-- The error if no candidate answers a question. -/
def noReachablePeer (inquiry : Inquiry) (candidates : Group) : AdminError :=
  .noReachablePeer inquiry.text (candidates.peers.map fun p => p.address.text)

/-- Asks the candidates in order until one yields a value. -/
def askAll {β : Type} (candidates : Group) (inquiry : Inquiry)
    (ask : Peer → Script (Except RpcFailure (Option β))) : Act β := do
  let found ← ExceptT.lift
    (Retry.firstAnswer (fun e => Script.call (.log e)) Peer.text ask 0 candidates.peers)
  match found with
  | some value => pure value
  | none => throw (noReachablePeer inquiry candidates)

/-- Asks one candidate for the groups it belongs to; no groups are no answer. -/
def askGroups (candidates : Group) (p : Peer) :
    Script (Except RpcFailure (Option (List GroupId))) := do
  match ← Script.call (.listGroups candidates p) with
  | .error failure => pure (.error failure)
  | .ok ids => pure (.ok (if ids.isEmpty then none else some ids))

/-- The event for a group that was discovered. -/
def discovered (id : GroupId) : LogEvent := .debug .resolution ("Discovered group " ++ id.text)

/-- The only group that the candidates belong to, going by the first that names any. -/
def discover (candidates : Group) : Act GroupId := do
  match ← askAll candidates .listGroups (askGroups candidates) with
  | [id] =>
    Act.log (discovered id)
    pure id
  | ids => throw (.ambiguousGroup ids)

/-- The event for a candidate that declined to answer. -/
def declined (p : Peer) (reply : ClientReply) : LogEvent :=
  .debug .resolution (p.text ++ " answered group info with: " ++ reply.errorMessage)

/-- Asks one candidate about a group; a failure and a group without members are no answer. -/
def askInfo (candidates : Group) (id : GroupId) (p : Peer) :
    Script (Except RpcFailure (Option GroupInfoReply)) := do
  match ← Script.call (.groupInfo candidates p id) with
  | .error failure => pure (.error failure)
  | .ok info =>
    if info.reply.success then pure (.ok (if info.group.isEmpty then none else some info))
    else do
      Script.call (.log (declined p info.reply))
      pure (.ok none)

/-- What the first candidate that knows a group says about it. -/
def fetchInfo (candidates : Group) (id : GroupId) : Act GroupInfoReply :=
  askAll candidates .groupInfo (askInfo candidates id)

/-- Finds the group's id, unless it is known, and its members. -/
def inquire (candidates : Group) (seed : Seed) : Act (GroupId × GroupInfoReply) := do
  let id ←
    match seed.id? with
    | some id => pure id
    | none => discover candidates
  let info ← fetchInfo candidates id
  pure (id, info)

/-- The candidates at addresses, to be asked about a group. -/
def candidateGroup (seed : Seed) (addresses : List PeerAddress) : Group :=
  .of (seed.id?.getD .bootstrap) (addresses.map Peer.ofAddress)

/-- The group with the members of an answer, and the candidates that are none of them. -/
def assemble (candidates : Group) (id : GroupId) (info : GroupInfoReply) : ResolvedGroup :=
  let group := Group.of id info.group.peers
  ⟨group, candidates.peers.filter fun p => (group.peerAt? p.address).isNone, info⟩

/-- The event for a candidate that is no member. -/
def keptContact (id : GroupId) (p : Peer) : LogEvent :=
  .debug .resolution
    (p.address.text ++ " is not a member of " ++ id.text ++ ", keeping it as a contact point")

/-- The event for a resolved group. -/
def resolvedEvent (r : ResolvedGroup) : LogEvent :=
  .info .resolution
    ("Resolved group " ++ r.group.id.text ++ " with " ++ Text.numeral r.group.peers.length
      ++ " members")

/-- Resolves a request. -/
def resolve (c : Configuration) (request : GroupRequest) : Act ResolvedGroup := do
  let (addresses, c) := request.addresses c
  Act.perform (.learn c.registry)
  let addresses ← Act.ofExcept addresses
  let (seed, c, events) := request.seed c
  Act.perform (.learn c.registry)
  Act.logAll events
  let seed ← Act.ofExcept seed
  let candidates := candidateGroup seed addresses
  if candidates.isEmpty then throw GroupRequest.noAddress
  let (id, info) ← Act.connected candidates (inquire candidates seed)
  let resolved := assemble candidates id info
  Act.logAll (resolved.contacts.map (keptContact id))
  Act.log (resolvedEvent resolved)
  pure resolved

end Resolution

end RaftAdmin
