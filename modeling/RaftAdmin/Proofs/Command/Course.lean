import RaftAdmin.Proofs.Command.Errand
import RaftAdmin.Proofs.Resolution.Path

/-!
# The course of a command

Whoever replies to a command, only so many things can happen after its group is resolved. This
module lists them, errand by errand: what is said over the connection, and with what the errand
ends.

## The model

Each list is an inductive relation between a conversation and a result, with one constructor for
each way in which things can go. A line that cannot be written ends an errand at once, except for
the lines that report why it failed.

## What is proved

* `doing_of_path` — an errand goes in one of the listed ways.
* **`course_of_path`** — a command is refused, or fails before its group is resolved, or does its
  errand with the resolved group and reports a failure if there is one.
-/

namespace RaftAdmin

open Script (Path)

variable {α : Type} {xs : List Turn}

/-! ### Lines -/

/-- A line that is written to the operator, if the stream takes it. -/
def Turn.line (fragments : List String) (written : Except String Unit) : Turn :=
  ⟨.print (fragments ++ ["\n"]), written⟩

/-- An exit code, unless the last line could not be written. -/
def told (code : Int) : Except String Unit → Except AdminError Int
  | .ok () => .ok code
  | .error cause => .error (.output cause)

/-- The error after a failed reply was shown, or could not be shown. -/
def rejection (context : String) (reply : ClientReply) : Except String Unit → AdminError
  | .ok () => .clusterRejected context reply.errorMessage
  | .error cause => .output cause

/-- The line that shows a failed reply. -/
def rejectionLine (context : String) (reply : ClientReply) (written : Except String Unit) : Turn :=
  .line [context, ". Error: ", reply.errorMessage] written

theorem path_say_iff {fragments : List String} {r : Except AdminError Unit} :
    Path (Act.say fragments).run xs r ↔
      ∃ written, xs = [.line fragments written] ∧ r = written.mapError .output := by
  rw [Act.say, Script.path_perform_bind_iff]
  constructor
  · rintro ⟨_ | ⟨⟨⟩⟩, ys, hy, rfl⟩
    · obtain ⟨rfl, rfl⟩ := Script.path_throw_iff.mp hy
      exact ⟨_, rfl, rfl⟩
    · obtain ⟨rfl, rfl⟩ := Script.path_act_pure_iff.mp hy
      exact ⟨_, rfl, rfl⟩
  · rintro ⟨_ | ⟨⟨⟩⟩, rfl, rfl⟩
    · exact ⟨.error _, [], Script.path_throw_iff.mpr ⟨rfl, rfl⟩, rfl⟩
    · exact ⟨.ok (), [], Script.path_act_pure_iff.mpr ⟨rfl, rfl⟩, rfl⟩

/-- After a line an act goes on, unless the line cannot be written. -/
theorem path_say_bind_iff {fragments : List String} {f : Unit → Act α} {r : Except AdminError α} :
    Path (Act.say fragments >>= f).run xs r ↔
      (∃ ys, Path (f ()).run ys r ∧ xs = .line fragments (.ok ()) :: ys) ∨
        ∃ cause, xs = [.line fragments (.error cause)] ∧ r = .error (.output cause) := by
  rw [Script.path_act_bind_iff]
  simp only [path_say_iff]
  constructor
  · rintro (⟨_, ⟨⟩, ys, ⟨written, rfl, hok⟩, hy, rfl⟩ | ⟨e, ⟨written, rfl, he⟩, rfl⟩)
    · cases written with
      | ok => exact .inl ⟨ys, hy, rfl⟩
      | error cause => cases hok
    · cases written with
      | ok => cases he
      | error cause =>
        obtain rfl := Except.error.inj he
        exact .inr ⟨cause, rfl, rfl⟩
  · rintro (⟨ys, hy, rfl⟩ | ⟨cause, rfl, rfl⟩)
    · exact .inl ⟨[_], (), ys, ⟨.ok (), rfl, rfl⟩, hy, rfl⟩
    · exact .inr ⟨_, ⟨.error cause, rfl, rfl⟩, rfl⟩

/-- An act that ends with a line and an exit code. -/
theorem path_tell_iff {fragments : List String} {code : Int} {r : Except AdminError Int} :
    Path (do Act.say fragments; pure code : Act Int).run xs r ↔
      ∃ written, xs = [.line fragments written] ∧ r = told code written := by
  rw [path_say_bind_iff]
  simp only [Script.path_act_pure_iff]
  constructor
  · rintro (⟨_, ⟨rfl, rfl⟩, rfl⟩ | ⟨cause, rfl, rfl⟩)
    · exact ⟨.ok (), rfl, rfl⟩
    · exact ⟨.error cause, rfl, rfl⟩
  · rintro ⟨_ | ⟨⟨⟩⟩, rfl, rfl⟩
    · exact .inr ⟨_, rfl, rfl⟩
    · exact .inl ⟨[], ⟨rfl, rfl⟩, rfl⟩

/-! ### Replies -/

theorem path_answered_bind_iff {β : Type} {answer : Except RpcFailure β} {f : β → Act α}
    {r : Except AdminError α} :
    Path (Act.answered answer >>= f).run xs r ↔
      (∃ failure, answer = .error failure ∧ xs = [] ∧ r = .error (.internal failure)) ∨
        ∃ b, answer = .ok b ∧ Path (f b).run xs r := by
  rw [Script.path_act_bind_iff]
  simp only [Script.path_answered_iff]
  constructor
  · rintro (⟨_, b, ys, ⟨rfl, hb⟩, hy, rfl⟩ | ⟨e, ⟨rfl, he⟩, rfl⟩)
    · cases answer with
      | error failure => cases hb
      | ok b' =>
        obtain rfl := Except.ok.inj hb
        exact .inr ⟨b, rfl, hy⟩
    · cases answer with
      | error failure => exact .inl ⟨failure, rfl, rfl, congrArg _ (Except.error.inj he)⟩
      | ok b' => cases he
  · rintro (⟨failure, rfl, rfl, rfl⟩ | ⟨b, rfl, hx⟩)
    · exact .inr ⟨_, ⟨rfl, rfl⟩, rfl⟩
    · exact .inl ⟨[], b, xs, ⟨rfl, rfl⟩, hx, rfl⟩

/-- A successful reply is passed over, and a failed one is shown. -/
theorem path_checkReply_iff {reply : ClientReply} {context : String} {r : Except AdminError Unit} :
    Path (checkReply reply context).run xs r ↔
      (reply.success = true ∧ xs = [] ∧ r = .ok ()) ∨
        reply.success = false ∧ ∃ written, xs = [rejectionLine context reply written] ∧
          r = .error (rejection context reply written) := by
  unfold checkReply
  cases hsuccess : reply.success with
  | true =>
    simp only [if_true, true_and, Bool.true_eq_false, false_and, or_false]
    exact Script.path_act_pure_iff
  | false =>
    simp only [Bool.false_eq_true, if_false, false_and, false_or, true_and]
    rw [path_say_bind_iff]
    simp only [Script.path_throw_iff]
    constructor
    · rintro (⟨_, ⟨rfl, rfl⟩, rfl⟩ | ⟨cause, rfl, rfl⟩)
      · exact ⟨.ok (), rfl, rfl⟩
      · exact ⟨.error cause, rfl, rfl⟩
    · rintro ⟨_ | ⟨⟨⟩⟩, rfl, rfl⟩
      · exact .inr ⟨_, rfl, rfl⟩
      · exact .inl ⟨[], ⟨rfl, rfl⟩, rfl⟩

/-- After a successful reply an act goes on, and a failed one ends it. -/
theorem path_checkReply_bind {reply : ClientReply} {context : String} {f : Unit → Act α}
    {r : Except AdminError α} (h : Path (checkReply reply context >>= f).run xs r) :
    (reply.success = true ∧ Path (f ()).run xs r) ∨
      reply.success = false ∧ ∃ written, xs = [rejectionLine context reply written] ∧
        r = .error (rejection context reply written) := by
  rcases Script.path_act_bind_iff.mp h with ⟨ys, ⟨⟩, zs, hy, hz, rfl⟩ | ⟨e, hx, rfl⟩
  · rcases path_checkReply_iff.mp hy with ⟨hreply, rfl, -⟩ | ⟨-, written, -, he⟩
    · exact .inl ⟨hreply, hz⟩
    · cases he
  · rcases path_checkReply_iff.mp hx with ⟨-, -, hok⟩ | ⟨hreply, written, rfl, he⟩
    · cases hok
    · obtain rfl := Except.error.inj he
      exact .inr ⟨hreply, written, rfl, rfl⟩

/-! ### Submitting members -/

/-- How submitting members goes over a connection. -/
inductive Submitting (r : ResolvedGroup) (peers : List Peer) (context : String) :
    List Turn → Except AdminError Int → Prop where
  /-- There is no answer. -/
  | unanswered (failure : RpcFailure) :
      Submitting r peers context [⟨.setConfiguration r.contactGroup peers, .error failure⟩]
        (.error (.internal failure))
  /-- The cluster declines the members. -/
  | declined (reply : ClientReply) (written : Except String Unit) (hreply : reply.success = false) :
      Submitting r peers context
        [⟨.setConfiguration r.contactGroup peers, .ok reply⟩, rejectionLine context reply written]
        (.error (rejection context reply written))
  /-- It accepts them. -/
  | accepted (reply : ClientReply) (written : Except String Unit) (hreply : reply.success = true) :
      Submitting r peers context
        [⟨.setConfiguration r.contactGroup peers, .ok reply⟩,
          .line ["Peers of group ", r.group.id.text, " are now ",
            Text.listing (peers.map Peer.text)] written]
        (told exitOk written)

/-- Over a connection to a group, unless it is refused. -/
def Connected (group : Group) (body : List Turn → Except AdminError α → Prop) (xs : List Turn)
    (r : Except AdminError α) : Prop :=
  (∃ failure, xs = [⟨.connect group, .error failure⟩] ∧ r = .error (.internal failure)) ∨
    ∃ ys, body ys r ∧ xs = ⟨.connect group, .ok ()⟩ :: ys ++ [⟨.disconnect group, ()⟩]

theorem connected_of_path {group : Group} {body : Act α}
    {P : List Turn → Except AdminError α → Prop} (hbody : ∀ {ys q}, Path body.run ys q → P ys q)
    {r : Except AdminError α} (h : Path (Act.connected group body).run xs r) :
    Connected group P xs r :=
  (Script.path_connected_iff.mp h).imp_right fun ⟨ys, hys, hxs⟩ => ⟨ys, hbody hys, hxs⟩

variable {r : ResolvedGroup} {result : Except AdminError Int}

theorem submitting_of_path {peers : List Peer} {context : String}
    (h : Path (submitMembers r peers context).run xs result) :
    Connected r.contactGroup (Submitting r peers context) xs result := by
  refine connected_of_path (fun {ys q} h => ?_) h
  obtain ⟨answer, zs, hz, rfl⟩ := Script.path_perform_bind_iff.mp h
  rcases path_answered_bind_iff.mp hz with ⟨failure, rfl, rfl, rfl⟩ | ⟨reply, rfl, hz⟩
  · exact .unanswered failure
  · rcases path_checkReply_bind hz with ⟨hreply, hz⟩ | ⟨hreply, written, rfl, rfl⟩
    · obtain ⟨written, rfl, rfl⟩ := path_tell_iff.mp hz
      exact .accepted reply written hreply
    · exact .declined reply written hreply

/-! ### Handing over -/

/-- How asking for a transfer goes, and reporting what has come of it. -/
inductive Transferring (group : Group) (id : PeerId) (timeout : Nat) :
    List Turn → Except AdminError Int → Prop where
  /-- There is no answer. -/
  | unanswered (failure : RpcFailure) (written : Except String Unit) :
      Transferring group id timeout
        [⟨.transferLeadership group id timeout, .error failure⟩,
          ⟨.log (transferFailed id (.internal failure)), ()⟩,
          .line ("caught an error when executing transfer: "
            :: (AdminError.internal failure).fragments) written]
        (told exitError written)
  /-- The cluster declines the transfer. -/
  | declined (reply : ClientReply) (shown written : Except String Unit)
      (hreply : reply.success = false) :
      Transferring group id timeout
        [⟨.transferLeadership group id timeout, .ok reply⟩,
          rejectionLine "election failed" reply shown,
          ⟨.log (transferFailed id (rejection "election failed" reply shown)), ()⟩,
          .line ("caught an error when executing transfer: "
            :: (rejection "election failed" reply shown).fragments) written]
        (told exitError written)
  /-- It accepts the transfer. -/
  | accepted (reply : ClientReply) (written : Except String Unit) (hreply : reply.success = true) :
      Transferring group id timeout
        [⟨.transferLeadership group id timeout, .ok reply⟩, ⟨.log (transferInitiated id), ()⟩,
          .line ["Transferring leadership initiated"] written]
        (told exitOk written)

/-- The context of a configuration that is declined before a transfer. -/
def preferenceContext : String := "failed to set priorities before initiating election"

/-- The line before the priorities are set. -/
def preferenceLine (r : ResolvedGroup) (member : Peer) (written : Except String Unit) : Turn :=
  .line ["Applying new peer state before transferring leadership: ",
    Text.listing ((preferring member.id r.group.peers).map Peer.text)] written

/-- The line before a transfer. -/
def transferLine (member : Peer) (written : Except String Unit) : Turn :=
  .line ("Transferring leadership to server with address <" :: member.address.fragments
    ++ ["> and with peer id <", member.id.text, ">"]) written

/-- How preferring a member and handing over to it goes over a connection. -/
inductive HandingOver (r : ResolvedGroup) (member : Peer) (settle timeout : Nat) :
    List Turn → Except AdminError Int → Prop where
  /-- The new priorities cannot be announced. -/
  | unannounced (cause : String) :
      HandingOver r member settle timeout [preferenceLine r member (.error cause)]
        (.error (.output cause))
  /-- There is no answer to them. -/
  | unanswered (failure : RpcFailure) :
      HandingOver r member settle timeout
        [preferenceLine r member (.ok ()),
          ⟨.setConfiguration r.contactGroup (preferring member.id r.group.peers), .error failure⟩]
        (.error (.internal failure))
  /-- The cluster declines them. -/
  | declined (reply : ClientReply) (written : Except String Unit) (hreply : reply.success = false) :
      HandingOver r member settle timeout
        [preferenceLine r member (.ok ()),
          ⟨.setConfiguration r.contactGroup (preferring member.id r.group.peers), .ok reply⟩,
          rejectionLine preferenceContext reply written]
        (.error (rejection preferenceContext reply written))
  /-- It accepts them, but the transfer cannot be announced. -/
  | untold (reply : ClientReply) (cause : String) (hreply : reply.success = true) :
      HandingOver r member settle timeout
        [preferenceLine r member (.ok ()),
          ⟨.setConfiguration r.contactGroup (preferring member.id r.group.peers), .ok reply⟩,
          transferLine member (.error cause)]
        (.error (.output cause))
  /-- It accepts them, and after the pause it is asked for the transfer. -/
  | asked (reply : ClientReply) (hreply : reply.success = true) {ys : List Turn}
      {result : Except AdminError Int} :
      Transferring r.contactGroup member.id timeout ys result →
        HandingOver r member settle timeout
          ([preferenceLine r member (.ok ()),
            ⟨.setConfiguration r.contactGroup (preferring member.id r.group.peers), .ok reply⟩,
            transferLine member (.ok ()), ⟨.sleep settle, ()⟩] ++ ys)
          result

theorem transferring_of_path {group : Group} {id : PeerId} {timeout : Nat}
    (h : Path (do
      let outcome ← ExceptT.lift (requestTransfer group id timeout).run
      concludeTransfer id outcome : Act Int).run xs result) :
    Transferring group id timeout xs result := by
  obtain ⟨_, outcome, zs, hrequest, hconclude, rfl⟩ := Script.path_lift_bind_iff.mp h
  obtain ⟨answer, ys, hy, rfl⟩ := Script.path_perform_bind_iff.mp hrequest
  have hreported : ∀ {e}, outcome = .error e → ∃ written,
      zs = [⟨.log (transferFailed id e), ()⟩,
        .line ("caught an error when executing transfer: " :: e.fragments) written] ∧
      result = told exitError written := by
    rintro e rfl
    obtain ⟨_, ws, hw, rfl⟩ := Script.path_perform_bind_iff.mp hconclude
    obtain ⟨written, rfl, rfl⟩ := path_tell_iff.mp hw
    exact ⟨written, rfl, rfl⟩
  rcases path_answered_bind_iff.mp hy with ⟨failure, rfl, rfl, houtcome⟩ | ⟨reply, rfl, hy⟩
  · obtain ⟨written, rfl, rfl⟩ := hreported houtcome
    exact .unanswered failure written
  · rcases path_checkReply_iff.mp hy with ⟨hreply, rfl, rfl⟩ | ⟨hreply, shown, rfl, houtcome⟩
    · obtain ⟨_, ws, hw, rfl⟩ := Script.path_perform_bind_iff.mp hconclude
      obtain ⟨written, rfl, rfl⟩ := path_tell_iff.mp hw
      exact .accepted reply written hreply
    · obtain ⟨written, rfl, rfl⟩ := hreported houtcome
      exact .declined reply shown written hreply

theorem handingOver_of_path {member : Peer} {settle timeout : Nat}
    (h : Path (handOver r member settle timeout).run xs result) :
    Connected r.contactGroup (HandingOver r member settle timeout) xs result := by
  refine connected_of_path (fun {ys q} h => ?_) h
  rcases path_say_bind_iff.mp h with ⟨zs, hsubmit, rfl⟩ | ⟨cause, rfl, rfl⟩
  case inr => exact .unannounced cause
  obtain ⟨answer, us, hanswer, rfl⟩ := Script.path_perform_bind_iff.mp hsubmit
  rcases path_answered_bind_iff.mp hanswer with ⟨failure, rfl, rfl, rfl⟩ | ⟨reply, rfl, hreplied⟩
  · exact .unanswered failure
  rcases path_checkReply_bind hreplied with ⟨hreply, htell⟩ | ⟨hreply, written, rfl, rfl⟩
  case inr => exact .declined reply written hreply
  rcases path_say_bind_iff.mp htell with ⟨vs, hpause, rfl⟩ | ⟨cause, rfl, rfl⟩
  · obtain ⟨_, ws, htransfer, rfl⟩ := Script.path_perform_bind_iff.mp hpause
    exact .asked reply hreply (transferring_of_path htransfer)
  · exact .untold reply cause hreply

/-! ### Showing a group -/

/-- How writing lines one after the other goes. -/
inductive Writing : List (List String) → List Turn → Except AdminError Unit → Prop where
  /-- All are written. -/
  | done : Writing [] [] (.ok ())
  /-- A line is written, and the rest is tried. -/
  | next (line : List String) {lines : List (List String)} {xs : List Turn}
      {r : Except AdminError Unit} :
      Writing lines xs r → Writing (line :: lines) (.line line (.ok ()) :: xs) r
  /-- A line cannot be written. -/
  | broken (line : List String) (lines : List (List String)) (cause : String) :
      Writing (line :: lines) [.line line (.error cause)] (.error (.output cause))

theorem writing_of_path {lines : List (List String)} {r : Except AdminError Unit}
    (h : Path (sayAll lines).run xs r) : Writing lines xs r := by
  induction lines generalizing xs with
  | nil =>
    obtain ⟨rfl, rfl⟩ := Script.path_act_pure_iff.mp h
    exact .done
  | cons line lines ih =>
    rcases path_say_bind_iff.mp h with ⟨ys, hy, rfl⟩ | ⟨cause, rfl, rfl⟩
    · exact .next line (ih hy)
    · exact .broken line lines cause

/-- The lines that show what a member knows. -/
def infoLines (info : GroupInfoReply) : List (List String) :=
  leaderLine info.role? :: [] :: info.commitInfos.map commitLine

/-- How asking the first member about its group goes over a connection, and showing what it says. -/
inductive Telling (r : ResolvedGroup) : List Turn → Except AdminError Int → Prop where
  /-- There is nobody to ask. -/
  | memberless (hpeers : r.group.peers = []) :
      Telling r [] (.error (.noReachablePeer Inquiry.groupInfo.text []))
  /-- There is no answer. -/
  | unanswered {first : Peer} {rest : List Peer} (hpeers : r.group.peers = first :: rest)
      (failure : RpcFailure) :
      Telling r [⟨.groupInfo r.contactGroup first r.group.id, .error failure⟩]
        (.error (.internal failure))
  /-- The member declines to answer. -/
  | declined {first : Peer} {rest : List Peer} (hpeers : r.group.peers = first :: rest)
      (info : GroupInfoReply) (written : Except String Unit)
      (hreply : info.reply.success = false) :
      Telling r
        [⟨.groupInfo r.contactGroup first r.group.id, .ok info⟩,
          rejectionLine "failed to get info" info.reply written]
        (.error (rejection "failed to get info" info.reply written))
  /-- It answers, and what it says is written. -/
  | told {first : Peer} {rest : List Peer} (hpeers : r.group.peers = first :: rest)
      (info : GroupInfoReply) (hreply : info.reply.success = true) {ys : List Turn}
      {shown : Except AdminError Unit} :
      Writing (infoLines info) ys shown →
        Telling r (⟨.groupInfo r.contactGroup first r.group.id, .ok info⟩ :: ys)
          (shown.map fun _ => exitOk)

theorem telling_of_path (h : Path (tellInfo r).run xs result) : Telling r xs result := by
  unfold tellInfo at h
  split at h
  · next hpeers =>
    obtain ⟨rfl, rfl⟩ := Script.path_throw_iff.mp h
    exact .memberless hpeers
  · next first rest hpeers =>
    obtain ⟨answer, zs, hz, rfl⟩ := Script.path_perform_bind_iff.mp h
    rcases path_answered_bind_iff.mp hz with ⟨failure, rfl, rfl, rfl⟩ | ⟨info, rfl, hu⟩
    · exact .unanswered hpeers failure
    rcases path_checkReply_bind hu with ⟨hreply, hv⟩ | ⟨hreply, written, rfl, rfl⟩
    · rcases Script.path_act_bind_iff.mp hv with ⟨ys, _, ws, hy, hw, rfl⟩ | ⟨e, he, rfl⟩
      · obtain ⟨rfl, rfl⟩ := Script.path_act_pure_iff.mp hw
        rw [List.append_nil]
        exact .told hpeers info hreply (writing_of_path hy)
      · exact .told hpeers info hreply (writing_of_path he)
    · exact .declined hpeers info written hreply

/-! ### Errands -/

/-- How an errand with a resolved group goes. -/
inductive Doing (r : ResolvedGroup) : Errand → List Turn → Except AdminError Int → Prop where
  /-- The id of the group cannot be shown. -/
  | unshown (cause : String) :
      Doing r .inspect [.line ["group id: ", r.group.id.text] (.error cause)]
        (.error (.output cause))
  /-- It is shown, and the first member is asked about the group. -/
  | inspect {xs : List Turn} {result : Except AdminError Int} :
      Connected r.contactGroup (Telling r) xs result →
        Doing r .inspect (.line ["group id: ", r.group.id.text] (.ok ()) :: xs) result
  /-- No member is at the address. -/
  | stranger (target : PeerAddress) (settle timeout : Nat) (hnone : r.group.peerAt? target = none) :
      Doing r (.lead target settle timeout) [] (.error (notInQuorum target r.group))
  /-- A member is there, and leadership is handed over to it. -/
  | lead (target : PeerAddress) (settle timeout : Nat) {member : Peer} {xs : List Turn}
      {result : Except AdminError Int} (hmember : r.group.peerAt? target = some member) :
      Connected r.contactGroup (HandingOver r member settle timeout) xs result →
        Doing r (.lead target settle timeout) xs result
  /-- Members are submitted. -/
  | submit (errand : Errand) (context : String) (events : List LogEvent) {peers : List Peer}
      {xs : List Turn} {result : Except AdminError Int} (hchanges : errand.ChangesMembers)
      (hpeers : errand.members? r.group = some peers) :
      Connected r.contactGroup (Submitting r peers context) xs result →
        Doing r errand (events.map (fun event => ⟨.log event, ()⟩) ++ xs) result

theorem doing_of_path {errand : Errand} (h : Path (errand.run r).run xs result) :
    Doing r errand xs result := by
  cases errand with
  | inspect =>
    rcases path_say_bind_iff.mp h with ⟨ys, hy, rfl⟩ | ⟨cause, rfl, rfl⟩
    · exact .inspect (connected_of_path telling_of_path hy)
    · exact .unshown cause
  | lead target settle timeout =>
    unfold Errand.run at h
    cases hmember : r.group.peerAt? target with
    | none =>
      simp only [hmember] at h
      obtain ⟨rfl, rfl⟩ := Script.path_throw_iff.mp h
      exact .stranger target settle timeout hmember
    | some member =>
      simp only [hmember] at h
      exact .lead target settle timeout hmember (handingOver_of_path h)
  | add addresses =>
    obtain ⟨ys, hy, rfl⟩ := Script.path_logAll_bind_iff.mp h
    exact .submit _ _ _ trivial rfl (submitting_of_path hy)
  | remove addresses => exact .submit _ _ [] trivial rfl (submitting_of_path h)
  | rank pairs =>
    obtain ⟨ys, hy, rfl⟩ := Script.path_logAll_bind_iff.mp h
    exact .submit _ _ _ trivial rfl (submitting_of_path hy)

/-- An errand for members submits them, after some events. -/
theorem submitting_of_doing {errand : Errand} (h : Doing r errand xs result)
    (hchanges : errand.ChangesMembers) :
    ∃ peers context ys, ∃ events : List LogEvent, errand.members? r.group = some peers ∧
      Connected r.contactGroup (Submitting r peers context) ys result ∧
      xs = events.map (fun event => ⟨.log event, ()⟩) ++ ys := by
  cases h with
  | unshown cause => exact hchanges.elim
  | inspect hconnected => exact hchanges.elim
  | stranger target settle timeout hnone => exact hchanges.elim
  | lead target settle timeout hmember hconnected => exact hchanges.elim
  | submit errand context events _ hpeers hconnected =>
    exact ⟨_, context, _, events, hpeers, hconnected, rfl⟩

/-! ### Commands -/

section

variable {conf : Configuration} {command : Command} {code : Int}

/-- In this conversation of a command its group is resolved, its errand is known by then, and the
rest is said afterwards. -/
def Command.Resolves (command : Command) (conf : Configuration) (xs : List Turn) (errand : Errand)
    (r : ResolvedGroup) (zs : List Turn) : Prop :=
  ∃ us ys, Path (command.task.errand conf).run us (.ok errand) ∧
    Path (Resolution.resolve (command.task.configured conf) command.group).run ys (.ok r) ∧
    xs = ⟨.log (Shell.running command), ()⟩ :: (us ++ (ys ++ zs))

/-- How the result of a command is reported. -/
inductive Reporting (command : Command) : Except AdminError Int → List Turn → Int → Prop where
  /-- The command has an exit code. -/
  | finished (code : Int) : Reporting command (.ok code) [] code
  /-- It has failed. -/
  | failed (e : AdminError) (written : Except String Unit) :
      Reporting command (.error e)
        [⟨.log (Shell.failed command e), ()⟩, .line e.fragments written] e.exitCode

/-- How a command goes. -/
inductive Course (command : Command) (conf : Configuration) : List Turn → Int → Prop where
  /-- It is not run, and its usage is shown. -/
  | refused (e : AdminError) (hrefused : command.validate = .error e)
      (why how what : Except String Unit) :
      Course command conf
        [.line e.fragments why, .line ["Usage: ", command.task.usage] how,
          .line [command.task.description] what]
        e.exitCode
  /-- It fails before its group is resolved. -/
  | unresolved (e : AdminError) {ys : List Turn} (hys : ∀ y ∈ ys, y.action.Inquires)
      (written : Except String Unit) :
      Course command conf
        (⟨.log (Shell.running command), ()⟩ ::
          (ys ++ [⟨.log (Shell.failed command e), ()⟩, .line e.fragments written]))
        e.exitCode
  /-- Its group is resolved, and it does its errand. -/
  | resolved {errand : Errand} {r : ResolvedGroup} {xs zs tail : List Turn}
      {result : Except AdminError Int} {code : Int}
      (hresolves : command.Resolves conf xs errand r (zs ++ tail))
      (hdoing : Doing r errand zs result) (hreporting : Reporting command result tail code) :
      Course command conf xs code

theorem only_readDuration {P : Action → Prop} (hlearn : ∀ registry, P (.learn registry))
    (c : Configuration) (k : PropertyKey) : (readDuration c k).run.Only P :=
  Script.Only.act_bind (Script.only_perform (hlearn _)) fun _ => trivial

/-- Reading the arguments asks nobody. -/
theorem only_errand {P : Action → Prop} (hlearn : ∀ registry, P (.learn registry))
    (conf : Configuration) (task : Task) : (task.errand conf).run.Only P := by
  cases task with
  | elect address? =>
    refine Script.Only.act_bind trivial fun target => ?_
    refine Script.Only.act_bind (only_readDuration hlearn conf _) fun settle => ?_
    exact Script.Only.act_bind (only_readDuration hlearn _ _) fun timeout => trivial
  | _ => trivial

theorem inquires_of_errand {us : List Turn} {task : Task} {read : Except AdminError Errand}
    (h : Path (task.errand conf).run us read) : ∀ u ∈ us, u.action.Inquires :=
  (only_errand (fun _ => trivial) conf task).of_path h

/-- An errand that is read from values is made of what they say. -/
theorem exists_read_of_path {β : Type} {read : Except AdminError β} {f : β → Errand}
    {errand : Errand} (h : Path (Act.ofExcept (read.map f)).run xs (.ok errand)) :
    ∃ b, read = .ok b ∧ errand = f b := by
  obtain ⟨-, hmap⟩ := Script.path_ofExcept_iff.mp h
  cases read with
  | error e => cases hmap
  | ok b => exact ⟨b, rfl, Except.ok.inj hmap⟩

theorem path_readDuration {k : PropertyKey} {ms : Nat}
    (h : Path (readDuration conf k).run xs (.ok ms)) : conf.getDuration k = .ok ms := by
  obtain ⟨_, ys, hread, -⟩ := Script.path_perform_bind_iff.mp h
  have hok := (Script.path_ofExcept_iff.mp hread).2
  cases hduration : conf.getDuration k with
  | error e =>
    rw [hduration] at hok
    cases hok
  | ok ms' =>
    rw [hduration] at hok
    exact congrArg Except.ok (Except.ok.inj hok.symm)

/-- A task for leadership is read as a target and two spans of time. -/
theorem exists_lead_of_path {address? : Option String} {errand : Errand}
    (h : Path ((Task.elect address?).errand conf).run xs (.ok errand)) :
    ∃ target settle timeout, errand = .lead target settle timeout ∧
      readTarget address? = .ok target ∧ conf.getDuration .electSettleDelay = .ok settle ∧
      (conf.afterReading .electSettleDelay).getDuration .electTransferTimeout = .ok timeout := by
  obtain ⟨_, target, _, htarget, hsettle, -⟩ | ⟨e, -, he⟩ := Script.path_act_bind_iff.mp h
  case inr => cases he
  obtain ⟨_, settle, _, hsettled, htimeout, -⟩ | ⟨e, -, he⟩ := Script.path_act_bind_iff.mp hsettle
  case inr => cases he
  obtain ⟨_, timeout, _, htimed, hlead, -⟩ | ⟨e, -, he⟩ := Script.path_act_bind_iff.mp htimeout
  case inr => cases he
  obtain ⟨-, hok⟩ := Script.path_act_pure_iff.mp hlead
  exact ⟨target, settle, timeout, Except.ok.inj hok, (Script.path_ofExcept_iff.mp htarget).2.symm,
    path_readDuration hsettled, path_readDuration htimed⟩

/-- A task is read as one of its errands. -/
theorem serves_of_path {task : Task} {errand : Errand}
    (h : Path (task.errand conf).run xs (.ok errand)) : errand.Serves task := by
  cases task with
  | info =>
    obtain ⟨-, hok⟩ := Script.path_act_pure_iff.mp h
    obtain rfl := Except.ok.inj hok
    trivial
  | elect address? =>
    obtain ⟨target, settle, timeout, rfl, -⟩ := exists_lead_of_path h
    trivial
  | quorumAdd values =>
    obtain ⟨addresses, -, rfl⟩ := exists_read_of_path h
    trivial
  | quorumRemove values =>
    obtain ⟨addresses, -, rfl⟩ := exists_read_of_path h
    trivial
  | setPriority values =>
    obtain ⟨pairs, -, rfl⟩ := exists_read_of_path h
    trivial

/-- Until the group is resolved nobody is asked for a change, and whatever is said afterwards, the
same errand is then known, and the same group resolved. -/
theorem exists_of_resolves {errand : Errand} {r : ResolvedGroup} {zs : List Turn}
    (h : command.Resolves conf xs errand r zs) :
    errand.Serves command.task ∧ ∃ us, (∀ u ∈ us, u.action.Inquires) ∧ xs = us ++ zs ∧
      ∀ ws, command.Resolves conf (us ++ ws) errand r ws := by
  obtain ⟨us, ys, herrand, hresolve, rfl⟩ := h
  refine ⟨serves_of_path herrand, ⟨.log (Shell.running command), ()⟩ :: (us ++ ys), ?_, by simp,
    fun ws => ⟨us, ys, herrand, hresolve, by simp⟩⟩
  refine List.forall_mem_cons.mpr ⟨trivial, List.forall_mem_append.mpr ⟨?_, ?_⟩⟩
  · exact inquires_of_errand herrand
  · exact (Resolution.only_resolve _ _).of_path hresolve

theorem path_mention {fragments : List String} {u : Unit}
    (h : Path (Script.mention fragments) xs u) : ∃ written, xs = [.line fragments written] := by
  obtain ⟨ys, written, zs, hy, hz, rfl⟩ := Script.path_bind_iff.mp h
  obtain rfl := Script.path_call_iff.mp hy
  obtain ⟨rfl, -⟩ := Script.path_pure_iff.mp hz
  exact ⟨written, rfl⟩

theorem path_refuse {e : AdminError} (h : Path (Shell.refuse command e) xs code) :
    ∃ why how what, code = e.exitCode ∧
      xs = [.line e.fragments why, .line ["Usage: ", command.task.usage] how,
        .line [command.task.description] what] := by
  obtain ⟨_, _, ys, hwhy, hy, rfl⟩ := Script.path_bind_iff.mp h
  obtain ⟨_, _, zs, hhow, hz, rfl⟩ := Script.path_bind_iff.mp hy
  obtain ⟨_, _, us, hwhat, hu, rfl⟩ := Script.path_bind_iff.mp hz
  obtain ⟨why, rfl⟩ := path_mention hwhy
  obtain ⟨how, rfl⟩ := path_mention hhow
  obtain ⟨what, rfl⟩ := path_mention hwhat
  obtain ⟨rfl, rfl⟩ := Script.path_pure_iff.mp hu
  exact ⟨why, how, what, rfl, rfl⟩

/-- A command that is run has the paths of its act, and then its result is reported. -/
theorem path_execute (h : Path (Shell.execute conf command) xs code) :
    (∃ e, command.validate = .error e ∧ Path (Shell.refuse command e) xs code) ∨
      ∃ ys result tail, Path (command.act conf).run ys result ∧
        Reporting command result tail code ∧
        xs = ⟨.log (Shell.running command), ()⟩ :: (ys ++ tail) := by
  unfold Shell.execute at h
  cases hvalidate : command.validate with
  | error e =>
    rw [hvalidate] at h
    exact .inl ⟨e, rfl, h⟩
  | ok =>
    rw [hvalidate] at h
    obtain ⟨_, _, us, hlog, hu, rfl⟩ := Script.path_bind_iff.mp h
    obtain rfl := Script.path_call_iff.mp hlog
    obtain ⟨ys, result, tail, hy, htail, rfl⟩ := Script.path_bind_iff.mp hu
    refine .inr ⟨ys, result, tail, hy, ?_, rfl⟩
    cases result with
    | ok code =>
      obtain ⟨rfl, rfl⟩ := Script.path_pure_iff.mp htail
      exact .finished code
    | error e =>
      obtain ⟨_, _, vs, hlog, hv, rfl⟩ := Script.path_bind_iff.mp htail
      obtain rfl := Script.path_call_iff.mp hlog
      obtain ⟨_, _, ws, hmention, hw, rfl⟩ := Script.path_bind_iff.mp hv
      obtain ⟨written, rfl⟩ := path_mention hmention
      obtain ⟨rfl, rfl⟩ := Script.path_pure_iff.mp hw
      exact .failed e written

/-- **How a command goes.** It is refused, or fails before its group is resolved, or does its errand
with the resolved group and reports a failure if there is one. -/
theorem course_of_path (h : Path (Shell.execute conf command) xs code) :
    Course command conf xs code := by
  rcases path_execute h with ⟨e, hrefused, hrefuse⟩ | ⟨ys, result, tail, hact, hreport, rfl⟩
  · obtain ⟨why, how, what, rfl, rfl⟩ := path_refuse hrefuse
    exact .refused e hrefused why how what
  · rw [act_eq] at hact
    rcases Script.path_act_bind_iff.mp hact with ⟨us, errand, vs, herrand, hv, rfl⟩ | ⟨e, he, rfl⟩
    · rcases Script.path_act_bind_iff.mp hv with ⟨ws, r, zs, hresolve, hrun, rfl⟩ | ⟨e, he, rfl⟩
      · refine .resolved ⟨us, ws, herrand, hresolve, ?_⟩ (doing_of_path hrun) hreport
        rw [List.append_assoc, List.append_assoc]
      · obtain _ | ⟨e, written⟩ := hreport
        refine .unresolved e (fun y hy => ?_) written
        rcases List.mem_append.mp hy with hy | hy
        · exact inquires_of_errand herrand y hy
        · exact (Resolution.only_resolve _ _).of_path he y hy
    · obtain _ | ⟨e, written⟩ := hreport
      exact .unresolved e (inquires_of_errand he) written

/-- Once the group is resolved, what follows is the errand and the report on it. -/
theorem doing_of_resolves {errand : Errand} {r : ResolvedGroup} {zs : List Turn}
    (h : Path (Shell.execute conf command) xs code)
    (hresolves : command.Resolves conf xs errand r zs) :
    ∃ us result tail, Doing r errand us result ∧ Reporting command result tail code ∧
      zs = us ++ tail := by
  obtain ⟨us, ys, herrand, hresolve, rfl⟩ := hresolves
  rcases path_execute h with ⟨e, -, hrefuse⟩ | ⟨vs, result, tail, hact, hreport, hsame⟩
  · obtain ⟨why, how, what, -, hsame⟩ := path_refuse hrefuse
    cases (List.cons.inj hsame).1
  · rw [act_eq] at hact
    have hsame := (List.cons.inj hsame).2
    rcases Script.path_act_bind_iff.mp hact with
      ⟨us', errand', vs, herrand', hv, rfl⟩ | ⟨e, he, rfl⟩
    · rw [List.append_assoc] at hsame
      obtain ⟨rfl, herrand, hsame⟩ := herrand.unique herrand' hsame
      obtain rfl := Except.ok.inj herrand
      rcases Script.path_act_bind_iff.mp hv with ⟨ws, r', zs', hresolve', hrun, rfl⟩ | ⟨e, he, rfl⟩
      · rw [List.append_assoc] at hsame
        obtain ⟨rfl, hr, rfl⟩ := hresolve.unique hresolve' hsame
        obtain rfl := Except.ok.inj hr
        exact ⟨zs', result, tail, doing_of_path hrun, hreport, rfl⟩
      · cases (hresolve.unique he hsame).2.1
    · cases (herrand.unique he hsame).2.1

end

end RaftAdmin
