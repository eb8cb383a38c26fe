import Mathlib.Data.List.Basic
import RaftAdmin.Http.Client

/-!
# The posts of a submission

A submission posts a change to one peer after the other. This module makes the posts and the answers
to them visible: `Transport.recording` is a network that also keeps the list of what went over it,
and `exchanges` says what a submission puts on that list, round by round.

## The model

An exchange is a request with its response. `exchanges` needs no list of the addresses that answer:
it gives what the first rounds of a submission exchange with any network, also with one that names
ever new leaders.

## What is proved

* `submit_recording` — a recorded submission ends as the submission itself does, and what it has
  recorded are its exchanges.
-/

namespace RaftAdmin.Http

/-- A request that was sent, and what became of it. -/
structure Exchange where
  /-- The request. -/
  request : Request
  /-- The response. -/
  response : Response

namespace Exchange

variable {x : Exchange} {result : Except RpcFailure ClientReply} {reply : ClientReply}

/-- The peer that the request went to. -/
def address (x : Exchange) : PeerAddress := x.request.address

/-- The reply, or why there is none. -/
def answer (x : Exchange) : Except RpcFailure ClientReply :=
  decode Wire.readReply x.request x.response

/-- The peer declined because it does not lead. -/
def Declined (x : Exchange) : Prop := ∃ reply, x.answer = .ok reply ∧ reply.notLeader = true

/-- The leader that the reply names. -/
def hint? (x : Exchange) : Option PeerAddress := x.answer.toOption.bind ClientReply.leaderHint?

theorem verdict_eq_declined_iff :
    verdict x.request x.response = .declined reply ↔
      x.answer = .ok reply ∧ reply.notLeader = true := by
  unfold verdict answer
  cases decode Wire.readReply x.request x.response with
  | error failure => simp
  | ok r =>
    by_cases hr : r.notLeader = true
    · simp only [hr, if_true, Verdict.declined.injEq, Except.ok.injEq]
      exact ⟨fun h => ⟨h, h ▸ hr⟩, And.left⟩
    · simp only [hr, Bool.false_eq_true, if_false, reduceCtorEq, Except.ok.injEq, false_iff,
        not_and]
      rintro rfl
      exact hr

theorem verdict_eq_final_iff :
    verdict x.request x.response = .final result ↔ x.answer = result ∧ ¬ x.Declined := by
  unfold verdict Declined answer
  cases decode Wire.readReply x.request x.response with
  | error failure => simp
  | ok r =>
    by_cases hr : r.notLeader = true
    · simp [hr]
    · simp [hr]

end Exchange

/-! ### Rounds -/

section

variable {τ : Type} (send : Request → τ → Response × τ) (request : PeerAddress → Request)

/-- What the first `n` rounds of a submission exchange with a network. -/
def exchanges : ℕ → Submission → τ → List Exchange
  | 0, _, _ => []
  | n + 1, s, w =>
    match s.next? with
    | none => []
    | some (a, s') =>
      match verdict (request a) (send (request a) w).1 with
      | .final _ => [⟨request a, (send (request a) w).1⟩]
      | .declined reply =>
        ⟨request a, (send (request a) w).1⟩ ::
          exchanges n (s'.decline reply) (send (request a) w).2

end

/-- The network that also keeps what went over it. -/
def Transport.recording {τ : Type} (t : Transport τ) : Transport (τ × List Exchange) where
  hosts := t.hosts
  send r w := ((t.send r w.1).1, (t.send r w.1).2, w.2 ++ [⟨r, (t.send r w.1).1⟩])
  silent r w h := t.silent r w.1 h

/-! ### The rounds of a submission -/

section

variable {τ : Type} {t : Transport τ} {group : GroupId} {path : String}
  {request : PeerAddress → Request} (sent : ∀ a, (request a).address = a)
  {s s' : Submission} {a : PeerAddress}

/-- The result of a submission that has no address left to try. -/
def Submission.conclusion (group : GroupId) (path : String) (s : Submission) :
    Except RpcFailure ClientReply :=
  match s.last? with
  | some reply => .ok reply
  | none => .error (noPeers group path)

theorem submit_of_none (h : s.next? = none) (w : τ) :
    submit t group path request sent s w = ⟨s.conclusion group path, w, []⟩ := by
  rw [submit]
  split
  · unfold Submission.conclusion
    cases s.last? <;> rfl
  · rename_i hnext
    exact absurd (h.symm.trans hnext) (by simp)

theorem submit_of_final (h : s.next? = some (a, s')) {w : τ}
    {result : Except RpcFailure ClientReply}
    (hverdict : verdict (request a) (t.send (request a) w).1 = .final result) :
    submit t group path request sent s w = ⟨result, (t.send (request a) w).2, []⟩ := by
  rw [submit]
  split
  · rename_i hnext
    exact absurd (h.symm.trans hnext) (by simp)
  · rename_i hnext
    obtain ⟨rfl, rfl⟩ := Prod.mk.inj (Option.some.inj (h.symm.trans hnext))
    split
    · rename_i hverdict'
      obtain rfl := Verdict.final.inj (hverdict.symm.trans hverdict')
      rfl
    · rename_i hverdict'
      exact absurd (hverdict.symm.trans hverdict') (by simp)

theorem submit_of_declined (h : s.next? = some (a, s')) {w : τ} {reply : ClientReply}
    (hverdict : verdict (request a) (t.send (request a) w).1 = .declined reply) :
    submit t group path request sent s w =
      let rest := submit t group path request sent (s'.decline reply) (t.send (request a) w).2
      ⟨rest.result, rest.state, declinedEvent group a reply :: rest.events⟩ := by
  rw [submit]
  split
  · rename_i hnext
    exact absurd (h.symm.trans hnext) (by simp)
  · rename_i hnext
    obtain ⟨rfl, rfl⟩ := Prod.mk.inj (Option.some.inj (h.symm.trans hnext))
    split
    · rename_i hverdict'
      exact absurd (hverdict.symm.trans hverdict') (by simp)
    · rename_i hverdict'
      obtain rfl := Verdict.declined.inj (hverdict.symm.trans hverdict')
      rfl

/-- A recorded submission ends as the submission itself does. What it records are its exchanges; it
has no more rounds than there are addresses that answer and were not tried, and one. -/
theorem submit_recording {n : ℕ} (hn : (s.untried t.hosts).length < n) (w : τ)
    (past : List Exchange) :
    submit t.recording group path request sent s (w, past) =
      let a := submit t group path request sent s w
      ⟨a.result, (a.state, past ++ exchanges t.send request n s w), a.events⟩ := by
  induction n generalizing s w past with
  | zero => omega
  | succ n ih =>
    cases hnext : s.next? with
    | none =>
      rw [submit_of_none sent hnext, submit_of_none sent hnext]
      simp [exchanges, hnext]
    | some next =>
      obtain ⟨a, s'⟩ := next
      have hsend : t.recording.send (request a) (w, past) = ((t.send (request a) w).1,
        (t.send (request a) w).2, past ++ [⟨request a, (t.send (request a) w).1⟩]) := rfl
      cases hverdict : verdict (request a) (t.send (request a) w).1 with
      | final result =>
        rw [submit_of_final sent hnext (by rw [hsend]; exact hverdict),
          submit_of_final sent hnext hverdict, hsend]
        simp [exchanges, hnext, hverdict]
      | declined reply =>
        have hless := Submission.length_untried_lt hnext
          (sent a ▸ mem_hosts_of_declined hverdict) reply
        rw [submit_of_declined sent hnext (by rw [hsend]; exact hverdict),
          submit_of_declined sent hnext hverdict, hsend, ih (by omega)]
        simp [exchanges, hnext, hverdict]

end

end RaftAdmin.Http
