import RaftAdmin.Http.Transport
import RaftAdmin.Log.Event
import RaftAdmin.Rpc.Wire
import RaftAdmin.Script.Connector

/-!
# Submitting a change

Only the leader of a group carries out changes, and a client does not know who leads. It sends the
change to the first member; a peer that declines because it does not lead may name the leader, who
is then tried next, and otherwise the next member is.

## The model

A submission keeps the addresses still to be tried, those tried already, and the last reply. No
address is tried twice. Any answer other than having declined ends the submission: a request that
failed may have been carried out, so it is never sent again.
-/

namespace RaftAdmin.Http

/-- A submission under way. -/
structure Submission where
  /-- The addresses to be tried, in order. -/
  pending : List PeerAddress
  /-- The addresses that were tried, in order. -/
  tried : List PeerAddress
  /-- The last reply. -/
  last? : Option ClientReply

namespace Submission

/-- The submission to a group before any request. -/
def start (group : Group) : Submission := ⟨group.peers.map (·.address), [], none⟩

/-- The next address to try, and the submission that has tried it. -/
def next? (s : Submission) : Option (PeerAddress × Submission) :=
  match s.pending.dropWhile fun a => a ∈ s.tried with
  | [] => none
  | a :: rest => some (a, { s with pending := rest, tried := s.tried ++ [a] })

/-- The submission after a peer has declined. -/
def decline (s : Submission) (reply : ClientReply) : Submission :=
  { s with pending := reply.leaderHint?.toList ++ s.pending, last? := some reply }

/-- The addresses of a network that were not tried yet. -/
def untried (hosts : List PeerAddress) (s : Submission) : List PeerAddress :=
  hosts.filter fun a => a ∉ s.tried

theorem mem_untried {hosts : List PeerAddress} {s : Submission} {a : PeerAddress} :
    a ∈ s.untried hosts ↔ a ∈ hosts ∧ a ∉ s.tried := by
  simp [untried, List.mem_filter]

/-- The next address was not tried before. -/
theorem not_mem_tried_of_next? {s t : Submission} {a : PeerAddress} (h : s.next? = some (a, t)) :
    a ∉ s.tried := by
  unfold next? at h
  split at h
  · contradiction
  · rename_i b rest hd
    injection h with h
    injection h with hb _
    subst hb
    have hp := List.head?_dropWhile_not (fun c => decide (c ∈ s.tried)) s.pending
    rw [hd] at hp
    simpa using hp

/-- The next address is tried now. -/
theorem tried_of_next? {s t : Submission} {a : PeerAddress} (h : s.next? = some (a, t)) :
    t.tried = s.tried ++ [a] := by
  unfold next? at h
  split at h
  · contradiction
  · injection h with h
    injection h with ha ht
    subst ha
    subst ht
    rfl

/-- Of some addresses, those that were not tried by one round more. -/
theorem untried_of_tried_concat {s t : Submission} {a : PeerAddress} (h : t.tried = s.tried ++ [a])
    (hosts : List PeerAddress) : t.untried hosts = (s.untried hosts).filter fun b => b ≠ a := by
  rw [untried, untried, List.filter_filter, h]
  refine List.filter_congr fun b _ => ?_
  by_cases hb : b = a <;> simp [hb]

/-- Trying a host leaves fewer of them. -/
theorem length_untried_lt {hosts : List PeerAddress} {s t : Submission} {a : PeerAddress}
    (h : s.next? = some (a, t)) (ha : a ∈ hosts) (reply : ClientReply) :
    ((t.decline reply).untried hosts).length < (s.untried hosts).length := by
  have ht : (t.decline reply).tried = s.tried ++ [a] :=
    show t.tried = s.tried ++ [a] from tried_of_next? h
  rw [untried_of_tried_concat ht]
  exact List.length_filter_lt_length_iff_exists.2
    ⟨a, mem_untried.2 ⟨ha, not_mem_tried_of_next? h⟩, by simp⟩

end Submission

/-- A text in quotes, as logs show it. -/
def quoted (s : String) : String :=
  let escape (c : Char) : List Char :=
    if c = '"' ∨ c = '\\' then ['\\', c]
    else if c = '\n' then ['\\', 'n']
    else if c = '\r' then ['\\', 'r']
    else if c = '\t' then ['\\', 't']
    else if c.toNat = 0 then ['\\', '0']
    else if c.toNat < 0x20 ∨ c.toNat = 0x7F then
      '\\' :: 'u' :: '\x7b' :: Nat.toDigits 16 c.toNat ++ ['\x7d']
    else [c]
  String.ofList ('"' :: s.toList.flatMap escape ++ ['"'])

/-- A leader hint as logs show it. -/
def hintText : Option PeerAddress → String
  | none => "None"
  | some a =>
    "Some(PeerAddress \x7b host: " ++ quoted a.host ++ ", port: " ++ Text.numeral a.port.toNat
      ++ " \x7d)"

/-- The event for a peer that declined. -/
def declinedEvent (group : GroupId) (a : PeerAddress) (reply : ClientReply) : LogEvent :=
  .debug .http
    (a.text ++ " is not the leader of " ++ group.text ++ " (hint: " ++ hintText reply.leaderHint?
      ++ ")")

/-- The failure of a submission to a group without members. -/
def noPeers (group : GroupId) (path : String) : RpcFailure :=
  .plain ("group " ++ group.text ++ " has no peers to send " ++ path ++ " to")

/-- What becomes of a request to submit a change. -/
inductive Verdict where
  /-- The submission ends with this result. -/
  | final (result : Except RpcFailure ClientReply)
  /-- The peer declined. -/
  | declined (reply : ClientReply)

/-- The verdict that a response means. -/
def verdict (r : Request) (response : Response) : Verdict :=
  match decode Wire.readReply r response with
  | .error failure => .final (.error failure)
  | .ok reply => if reply.notLeader then .declined reply else .final (.ok reply)

/-- Only an address that answers can decline. -/
theorem mem_hosts_of_declined {τ : Type} {t : Transport τ} {r : Request} {w : τ}
    {reply : ClientReply} (h : verdict r (t.send r w).1 = .declined reply) :
    r.address ∈ t.hosts := by
  by_cases hr : r.address ∈ t.hosts
  · exact hr
  · rw [t.silent r w hr] at h
    simp [verdict, decode] at h

/-- Submits a change, given the request that carries it to an address. -/
def submit {τ : Type} (t : Transport τ) (group : GroupId) (path : String)
    (request : PeerAddress → Request) (sent : ∀ a, (request a).address = a) (s : Submission)
    (w : τ) :
    Answer τ ClientReply :=
  match _next : s.next? with
  | none =>
    match s.last? with
    | some reply => ⟨.ok reply, w, []⟩
    | none => ⟨.error (noPeers group path), w, []⟩
  | some (a, s') =>
    match _declined : verdict (request a) (t.send (request a) w).1 with
    | .final result => ⟨result, (t.send (request a) w).2, []⟩
    | .declined reply =>
      let rest := submit t group path request sent (s'.decline reply) (t.send (request a) w).2
      ⟨rest.result, rest.state, declinedEvent group a reply :: rest.events⟩
termination_by (s.untried t.hosts).length
decreasing_by
  exact Submission.length_untried_lt _next (sent a ▸ mem_hosts_of_declined _declined) reply

end RaftAdmin.Http
