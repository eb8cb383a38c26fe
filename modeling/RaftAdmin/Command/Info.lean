import RaftAdmin.Command.Change

/-!
# Showing a group

The group's id, its leader, and how far its members have committed, as its first member sees them.
-/

namespace RaftAdmin

/-- An address in fragments. -/
def PeerAddress.fragments (a : PeerAddress) : List String :=
  [a.host, ":", Text.numeral a.port.toNat]

/-- A server in fragments: `ID(HOST:PORT)`. -/
def PeerInfo.fragments (i : PeerInfo) : List String :=
  i.id.text :: "(" :: i.address.fragments ++ [")"]

/-- The line about the leader. -/
def leaderLine (role? : Option RoleInfo) : List String :=
  match role?.bind RoleInfo.leader? with
  | some leader => "leader info: " :: leader.fragments
  | none => ["leader info: unknown"]

/-- The line about a member. -/
def commitLine (i : CommitInfo) : List String :=
  "  " :: i.server.fragments ++ [": commit index ", Text.numeral i.commitIndex.toNat]

/-- Writes lines to the operator in order. -/
def sayAll : List (List String) → Act Unit
  | [] => pure ()
  | line :: lines => do
    Act.say line
    sayAll lines

/-- Shows what a member knows about its group. -/
def showInfo (info : GroupInfoReply) : Act Unit :=
  sayAll (leaderLine info.role? :: [] :: info.commitInfos.map commitLine)

/-- Shows a group. -/
def runInfo (c : Configuration) (request : GroupRequest) : Act Int := do
  let r ← Resolution.resolve c request
  Act.say ["group id: ", r.group.id.text]
  Act.connected r.contactGroup do
    match r.group.peers with
    | [] => throw (.noReachablePeer Inquiry.groupInfo.text [])
    | first :: _ =>
      let info ← Act.answered (← Act.perform (.groupInfo r.contactGroup first r.group.id))
      checkReply info.reply "failed to get info"
      showInfo info
      pure exitOk

end RaftAdmin
