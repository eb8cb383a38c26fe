import Mathlib
import RaftAdmin.Proofs.Http.Delivery

/-!
# Who has accepted a change

A reply says two things apart from each other: whether the change was carried out, and whether the
peer declined because it does not lead. A peer accepts a change if it says the first and not the
second. This module says which successes a client reports, and who stands behind them.

## What is proved

* `success_iff_last` — a success is what the last peer reports.
* `success_iff` — a success is reported exactly if a peer accepted, or if all peers declined and the
  last of them still says that the change was carried out.
* `exists_accepted` — among peers that decline as they should, somebody stands behind a success.
* `exists_declined_success` — the second case does occur: nobody accepted, and the client reports a
  success.
-/

namespace RaftAdmin.Http

/-! ### Changes of a group -/

/-- A change of a group. -/
inductive Mutation where
  /-- Members and priorities are replaced. -/
  | setConfiguration (peers : List Peer)
  /-- A member is made the leader within so many milliseconds. -/
  | transferLeadership (target : PeerId) (timeout : Nat)

namespace Mutation

/-- Asks a connected group for a change. -/
def run {σ : Type} (k : Connector σ) (group : Group) : Mutation → σ → Answer σ ClientReply
  | setConfiguration peers => k.setConfiguration group peers
  | transferLeadership target timeout => k.transferLeadership group target timeout

variable {τ : Type} (settings : Settings) (t : Transport τ) (group : Group)

/-- What a change posts, with the answers, as the network records it. -/
def posts (m : Mutation) (w : τ) : List Exchange :=
  (m.run (connector settings t.recording) group (w, [])).state.2

/-- Either change is a body that is sent below a path. -/
theorem exists_change (m : Mutation) : ∃ path body timeout, ∀ w,
    m.run (connector settings t) group w = change settings t group path body timeout w ∧
      m.posts settings t group w = Http.posts settings t group path body timeout w := by
  cases m <;> exact ⟨_, _, _, fun w => ⟨rfl, rfl⟩⟩

end Mutation

/-! ### Success -/

namespace Exchange

variable {x : Exchange}

/-- The reply says that the change was carried out. -/
def ReportsSuccess (x : Exchange) : Prop := ∃ reply, x.answer = .ok reply ∧ reply.success = true

/-- The peer says that it has carried out the change, and does not decline it. -/
def Accepted (x : Exchange) : Prop :=
  ∃ reply, x.answer = .ok reply ∧ reply.success = true ∧ reply.notLeader = false

theorem accepted_iff : x.Accepted ↔ x.ReportsSuccess ∧ ¬ x.Declined := by
  unfold Accepted ReportsSuccess Declined
  cases x.answer <;> simp

end Exchange

section

variable {τ : Type} (settings : Settings) (t : Transport τ) (group : Group) (m : Mutation) (w : τ)

/-- All peers that are posted to decline, except perhaps the last. -/
theorem declined_of_mem_dropLast :
    ∀ x ∈ (m.posts settings t group w).dropLast, x.Declined := by
  obtain ⟨path, body, timeout, hm⟩ := m.exists_change settings t group
  rw [(hm w).2]
  exact (posts_orderly settings t group path body timeout w).declined

/-- A success is what the last peer that is posted to reports. -/
theorem success_iff_last :
    (∃ reply, (m.run (connector settings t) group w).result = .ok reply ∧ reply.success = true) ↔
      ∃ x, (m.posts settings t group w).getLast? = some x ∧ x.ReportsSuccess := by
  obtain ⟨path, body, timeout, hm⟩ := m.exists_change settings t group
  rw [(hm w).1, (hm w).2]
  have hconcluded := change_concluded settings t group path body timeout w
  generalize (change settings t group path body timeout w).result = result at hconcluded ⊢
  generalize Http.posts settings t group path body timeout w = xs at hconcluded ⊢
  rcases List.eq_nil_or_concat xs with rfl | ⟨past, x, rfl⟩
  · obtain rfl : result = _ := hconcluded.2
    simp
  · simp only [List.concat_eq_append, Concluded, List.getLast?_concat] at hconcluded ⊢
    obtain rfl : result = x.answer := hconcluded.1
    simp only [Option.some.injEq, exists_eq_left']
    exact Iff.rfl

/-- Where every decline is one that says that nothing was carried out, a reported success was
accepted. -/
theorem exists_accepted
    (hdeclines : ∀ x ∈ m.posts settings t group w, x.Declined →
      ∃ hint?, x.answer = .ok (.declined hint?))
    (h : ∃ reply, (m.run (connector settings t) group w).result = .ok reply ∧
      reply.success = true) :
    ∃ x ∈ m.posts settings t group w, x.Accepted := by
  obtain ⟨x, hlast, hreports⟩ := (success_iff_last settings t group m w).mp h
  have hx := List.mem_of_getLast? hlast
  refine ⟨x, hx, Exchange.accepted_iff.mpr ⟨hreports, fun hdeclined => ?_⟩⟩
  obtain ⟨hint?, hanswer⟩ := hdeclines x hx hdeclined
  obtain ⟨reply, hreply, hsuccess⟩ := hreports
  obtain rfl : ClientReply.declined hint? = reply := Except.ok.inj (hanswer.symm.trans hreply)
  cases hsuccess

end

variable {τ : Type}

/-- **A success is reported** exactly if some peer accepted the change, or if every peer that was
asked declined it and the last of them says all the same that it was carried out. Where no rejection
says so, a reported success was accepted. -/
theorem success_iff (settings : Settings) (t : Transport τ) (group : Group) (m : Mutation) (w : τ) :
    (∃ reply, (m.run (connector settings t) group w).result = .ok reply ∧ reply.success = true) ↔
      (∃ x ∈ m.posts settings t group w, x.Accepted) ∨
        (∀ x ∈ m.posts settings t group w, x.Declined) ∧
          ∃ x, (m.posts settings t group w).getLast? = some x ∧ x.ReportsSuccess := by
  rw [success_iff_last]
  have hdeclined := declined_of_mem_dropLast settings t group m w
  generalize m.posts settings t group w = xs at hdeclined ⊢
  rcases List.eq_nil_or_concat xs with rfl | ⟨past, x, rfl⟩
  · simp
  · simp only [List.concat_eq_append, List.dropLast_concat] at hdeclined ⊢
    have hall : (∀ y ∈ past ++ [x], y.Declined) ↔ x.Declined := by
      simpa [or_imp, forall_and] using fun _ => hdeclined
    -- a declined post is not accepted, so of all posts only the last may be
    have hany : (∃ y ∈ past ++ [x], y.Accepted) ↔ x.Accepted := by
      refine ⟨?_, fun h => ⟨x, by simp, h⟩⟩
      rintro ⟨y, hy, hyaccepted⟩
      rcases List.mem_append.mp hy with hy | hy
      · exact absurd (hdeclined y hy) (Exchange.accepted_iff.mp hyaccepted).2
      · rwa [← List.mem_singleton.mp hy]
    rw [hall, hany, Exchange.accepted_iff]
    simp only [List.getLast?_concat, Option.some.injEq, exists_eq_left']
    tauto

/-! ### A success that nobody stands behind -/

/-- The only peer of a network. -/
def loneAddress : PeerAddress := ⟨"h1", 9870⟩

/-- The reply of a peer that declines and says that the change was carried out. -/
def contraryReply : ClientReply := ⟨true, none, true, none⟩

/-- That reply as it is sent. -/
def contraryBody : String := "\x7b\"success\":true,\"not_leader\":true\x7d"

/-- The network of one peer that always sends this reply. -/
def contraryNetwork : Transport Unit where
  hosts := [loneAddress]
  send r w := (if r.address = loneAddress then .complete 200 contraryBody else .failed, w)
  silent r w h := if_neg (by simpa using h)

theorem read_contraryBody : (Json.read contraryBody).bind Wire.readReply = some contraryReply := by
  cbv

variable (settings : Settings) (path : String) (body : Json.Value) (timeout : Nat)

/-- What is exchanged with the only peer. -/
def contraryExchange : Exchange :=
  ⟨post settings path body timeout loneAddress, .complete 200 contraryBody⟩

theorem contraryExchange_answer :
    (contraryExchange settings path body timeout).answer = .ok contraryReply := by
  simp [contraryExchange, Exchange.answer, decode, read_contraryBody]

theorem contraryNetwork_send :
    contraryNetwork.send (post settings path body timeout loneAddress) () =
      (.complete 200 contraryBody, ()) := by
  simp [contraryNetwork, post]

theorem posts_contraryNetwork :
    posts settings contraryNetwork (.of .bootstrap [.ofAddress loneAddress]) path body timeout ()
      = [contraryExchange settings path body timeout] := by
  have hstart : (Submission.start (.of .bootstrap [Peer.ofAddress loneAddress])).next? =
      some (loneAddress, ⟨[], [loneAddress], none⟩) := by rfl
  have hend : (Submission.decline ⟨[], [loneAddress], none⟩ contraryReply).next? = none := by rfl
  have hverdict := (contraryExchange settings path body timeout).verdict_eq_declined_iff.mpr
    ⟨contraryExchange_answer settings path body timeout, rfl⟩
  rw [contraryExchange] at hverdict
  have hhosts : contraryNetwork.hosts.length = 1 := rfl
  rw [posts_eq, hhosts]
  simp only [exchanges, hstart, contraryNetwork_send, hverdict, hend]
  rfl

/-- **A success that nobody accepted.** The only member of a group declines, and the client reports
a success. -/
theorem exists_declined_success :
    ∃ (settings : Settings) (t : Transport Unit) (group : Group) (m : Mutation),
      (∃ reply, (m.run (connector settings t) group ()).result = .ok reply ∧
        reply.success = true) ∧
      (∀ x ∈ m.posts settings t group (), x.Declined) ∧
      ¬ ∃ x ∈ m.posts settings t group (), x.Accepted := by
  let settings : Settings := ⟨"http", 15000⟩
  let group := Group.of .bootstrap [Peer.ofAddress loneAddress]
  let m := Mutation.setConfiguration group.peers
  obtain ⟨path, body, timeout, hm⟩ := m.exists_change settings contraryNetwork group
  have hposts : m.posts settings contraryNetwork group ()
      = [contraryExchange settings path body timeout] :=
    (hm ()).2.trans (posts_contraryNetwork settings path body timeout)
  have hanswer := contraryExchange_answer settings path body timeout
  have hdeclined : (contraryExchange settings path body timeout).Declined :=
    ⟨contraryReply, hanswer, rfl⟩
  refine ⟨settings, contraryNetwork, group, m, ⟨contraryReply, ?_, rfl⟩, ?_, ?_⟩
  · have hconcluded := change_concluded settings contraryNetwork group path body timeout ()
    rw [posts_contraryNetwork] at hconcluded
    rw [(hm ()).1]
    exact hconcluded.1.trans hanswer
  · rw [hposts]
    simpa using hdeclined
  · rw [hposts]
    simpa using fun h => (Exchange.accepted_iff.mp h).2 hdeclined

end RaftAdmin.Http
