import Mathlib.Data.List.Induction
import Mathlib.Data.List.TakeWhile
import RaftAdmin.Proofs.Http.Exchange

/-!
# Who is posted to next

A submission keeps a queue of addresses, puts the leaders it hears of in front, and passes over
addresses that were tried. This module says the same without a queue: what was exchanged so far
decides who is next.

## The model

`successor` is the leader that the last reply names, or else the first member in order, in each case
passing over addresses that were tried. `Tracks` relates the queue to the exchanges made so far.

## What is proved

* `Tracks.succ` — a declined round leads to a submission that tracks one exchange more.
* `Tracks.exchanges_eq` — every post goes to the successor of those before it, all of them declined.
* `Tracks.concluded` — a submission ends with the last answer, and after a rejection only when there
  is no successor.
-/

namespace RaftAdmin

/-- The addresses of the members in order. -/
def Group.addresses (g : Group) : List PeerAddress := g.peers.map Peer.address

namespace Http

/-! ### Who is next -/

/-- The leader named by the last reply, then the members. -/
def targets (members : List PeerAddress) (past : List Exchange) : List PeerAddress :=
  (past.getLast?.bind Exchange.hint?).toList ++ members

/-- Whom to post to after some exchanges: the leader that the last reply names if this address was
not tried, or else the first member in order that was not tried. -/
def successor (members : List PeerAddress) (past : List Exchange) : Option PeerAddress :=
  (targets members past).find? fun a => a ∉ past.map Exchange.address

variable {members : List PeerAddress} {past : List Exchange} {x : Exchange} {a : PeerAddress}

theorem targets_concat : targets members (past ++ [x]) = x.hint?.toList ++ members := by
  simp [targets]

theorem successor_nil : successor members [] = members.head? := by
  cases members <;> simp [successor, targets]

theorem successor_concat_of_hint {hint : PeerAddress} (hhint : x.hint? = some hint)
    (h : hint ∉ (past ++ [x]).map Exchange.address) :
    successor members (past ++ [x]) = some hint := by
  rw [successor, targets_concat, hhint, Option.toList_some, List.singleton_append,
    List.find?_cons_of_pos (by simpa only [decide_eq_true_eq] using h)]

theorem successor_concat_of_tried
    (h : ∀ hint, x.hint? = some hint → hint ∈ (past ++ [x]).map Exchange.address) :
    successor members (past ++ [x]) =
      members.find? fun a => a ∉ (past ++ [x]).map Exchange.address := by
  rw [successor, targets_concat, List.find?_append]
  have hnone : x.hint?.toList.find? (fun a => a ∉ (past ++ [x]).map Exchange.address) = none := by
    rw [List.find?_eq_none]
    intro hint hmem
    simpa only [decide_eq_true_eq, not_not] using h hint (Option.mem_toList.mp hmem)
  rw [hnone, Option.none_or]

theorem not_mem_of_successor (h : successor members past = some a) :
    a ∉ past.map Exchange.address := by
  simpa using List.find?_some h

theorem successor_eq_none_iff :
    successor members past = none ↔ ∀ a ∈ targets members past, a ∈ past.map Exchange.address := by
  simp [successor]

/-- Posts that each go to an address not tried before go to distinct addresses. -/
theorem nodup_of_successor {posts : List Exchange}
    (h : ∀ past x rest, posts = past ++ x :: rest → successor members past = some x.address) :
    (posts.map Exchange.address).Nodup := by
  induction posts using List.reverseRecOn with
  | nil => simp
  | append_singleton posts x ih =>
    have hfresh := not_mem_of_successor (h posts x [] rfl)
    have hposts := ih fun past y rest hy => h past y (rest ++ [x]) (by simp [hy])
    rw [List.map_append, List.nodup_append]
    refine ⟨hposts, by simp, fun a ha b hb => ?_⟩
    obtain rfl : b = x.address := by simpa using hb
    rintro rfl
    exact hfresh ha

namespace Submission

variable {s s' : Submission} {reply : ClientReply}

/-- The next address is the first that is pending and was not tried. -/
theorem untried_pending_of_next? (h : s.next? = some (a, s')) :
    s.untried s.pending = a :: s.untried s'.pending := by
  unfold next? at h
  split at h
  · contradiction
  · rename_i b rest hdrop
    obtain ⟨rfl, rfl⟩ := Prod.mk.inj (Option.some.inj h)
    have hsplit :=
      List.takeWhile_append_dropWhile (p := fun a => decide (a ∈ s.tried)) (l := s.pending)
    rw [hdrop] at hsplit
    have htaken : s.untried (s.pending.takeWhile fun a => decide (a ∈ s.tried)) = [] := by
      rw [untried, List.filter_eq_nil_iff]
      intro a ha
      simpa using List.mem_takeWhile_imp ha
    have hb : b ∉ s.tried := not_mem_tried_of_next? (s := s) (by rw [next?, hdrop])
    calc s.untried s.pending
        = s.untried (s.pending.takeWhile fun a => decide (a ∈ s.tried))
            ++ s.untried (b :: rest) := by
          rw [untried, untried, untried, ← List.filter_append, hsplit]
      _ = b :: s.untried rest := by
          rw [htaken, List.nil_append, untried, untried,
            List.filter_cons_of_pos (by simpa using hb)]

theorem untried_pending_of_none (h : s.next? = none) : s.untried s.pending = [] := by
  unfold next? at h
  split at h
  · rename_i hdrop
    rw [untried, List.filter_eq_nil_iff]
    simpa [List.dropWhile_eq_nil_iff] using hdrop
  · contradiction

/-! ### What a submission keeps of its exchanges -/

/-- The submission has made these exchanges with peers that all declined, and it will post to whom
they suggest. -/
structure Tracks (members : List PeerAddress) (past : List Exchange) (s : Submission) : Prop where
  /-- It knows whom it has tried. -/
  tried : s.tried = past.map Exchange.address
  /-- The untried addresses in its queue are the last hint and the members. -/
  pending : s.untried s.pending = s.untried (targets members past)
  /-- All peers have declined. -/
  declined : ∀ x ∈ past, x.Declined
  /-- It knows the last answer. -/
  last : past.getLast?.map Exchange.answer = s.last?.map .ok

theorem tracks_start (group : Group) : (start group).Tracks group.addresses [] where
  tried := rfl
  pending := rfl
  declined := by simp
  last := rfl

theorem Tracks.successor_eq (h : s.Tracks members past) :
    successor members past = (s.untried s.pending).head? := by
  rw [h.pending, untried, List.head?_filter, successor, h.tried]

theorem Tracks.successor_of_next? (h : s.Tracks members past) (hnext : s.next? = some (a, s')) :
    successor members past = some a := by
  rw [h.successor_eq, untried_pending_of_next? hnext, List.head?_cons]

theorem Tracks.successor_of_none (h : s.Tracks members past) (hnext : s.next? = none) :
    successor members past = none := by
  rw [h.successor_eq, untried_pending_of_none hnext, List.head?_nil]

/-- After a round the untried members are those that still wait in the queue: a hint that was not
tried has just been. -/
theorem Tracks.untried_members (h : s.Tracks members past) (hnext : s.next? = some (a, s')) :
    s'.untried members = s'.untried s'.pending := by
  have hqueue : a :: s.untried s'.pending = s.untried (targets members past) := by
    rw [← untried_pending_of_next? hnext, h.pending]
  have hrest := congrArg (List.filter fun b => b ≠ a) hqueue
  rw [List.filter_cons_of_neg (by simp), ← untried_of_tried_concat (tried_of_next? hnext),
    ← untried_of_tried_concat (tried_of_next? hnext), targets, untried, untried,
    List.filter_append] at hrest
  have hhint : (past.getLast?.bind Exchange.hint?).toList.filter (fun b => b ∉ s'.tried) = [] := by
    rw [List.filter_eq_nil_iff]
    intro b hb
    rw [targets] at hqueue
    cases hlast : past.getLast?.bind Exchange.hint? with
    | none => simp [hlast] at hb
    | some hint =>
      obtain rfl : b = hint := by simpa [hlast] using hb
      rw [tried_of_next? hnext]
      by_cases hb' : b ∈ s.tried
      · simp [hb']
      · have : a = b := by simpa [hlast, untried, hb'] using congrArg List.head? hqueue
        simp [this]
  rw [hhint, List.nil_append] at hrest
  exact hrest.symm

/-- A declined round leads to a submission that tracks one exchange more. -/
theorem Tracks.succ (h : s.Tracks members past) (hnext : s.next? = some (a, s'))
    (haddress : x.address = a) (hanswer : x.answer = .ok reply) (hleader : reply.notLeader = true) :
    (s'.decline reply).Tracks members (past ++ [x]) where
  tried := by
    rw [List.map_append, List.map_singleton, haddress, ← h.tried]
    exact (tried_of_next? hnext :)
  pending := by
    have hhint : x.hint? = reply.leaderHint? := by simp [Exchange.hint?, hanswer, Except.toOption]
    rw [targets_concat, hhint]
    change s'.untried (reply.leaderHint?.toList ++ s'.pending) = s'.untried _
    rw [untried, List.filter_append]
    conv_rhs => rw [untried, List.filter_append]
    exact congrArg _ (h.untried_members hnext).symm
  declined := by
    intro y hy
    rcases List.mem_append.mp hy with hy | hy
    · exact h.declined y hy
    · obtain rfl : y = x := by simpa using hy
      exact ⟨reply, hanswer, hleader⟩
  last := by simp [decline, hanswer]

end Submission

/-! ### Rounds -/

section

variable {τ : Type} {send : Request → τ → Response × τ} {request : PeerAddress → Request}
  (sent : ∀ a, (request a).address = a) {s : Submission}

include sent in
/-- Every post goes to the successor of those before it, and these were all declined. -/
theorem Submission.Tracks.exchanges_eq (h : s.Tracks members past) (n : ℕ) (w : τ)
    (ys : List Exchange) (x : Exchange) (rest : List Exchange)
    (hx : exchanges send request n s w = ys ++ x :: rest) :
    successor members (past ++ ys) = some x.address ∧ x.request = request x.address ∧
      ∀ y ∈ ys, y.Declined := by
  induction n generalizing past s w ys with
  | zero => simp [exchanges] at hx
  | succ n ih =>
    rw [exchanges] at hx
    cases hnext : s.next? with
    | none => simp [hnext] at hx
    | some next =>
      obtain ⟨a, s'⟩ := next
      let x₀ : Exchange := ⟨request a, (send (request a) w).1⟩
      have hhead : successor members (past ++ []) = some x₀.address ∧
          x₀.request = request x₀.address ∧ ∀ y ∈ ([] : List Exchange), y.Declined := by
        have haddress : x₀.address = a := sent a
        rw [List.append_nil, haddress]
        exact ⟨h.successor_of_next? hnext, rfl, by simp⟩
      simp only [hnext] at hx
      cases hverdict : verdict (request a) (send (request a) w).1 with
      | final result =>
        simp only [hverdict] at hx
        cases ys with
        | nil =>
          obtain ⟨rfl, -⟩ := List.cons.inj hx
          exact hhead
        | cons y ys => simp at hx
      | declined reply =>
        simp only [hverdict] at hx
        obtain ⟨hanswer, hleader⟩ := Exchange.verdict_eq_declined_iff (x := x₀).mp hverdict
        cases ys with
        | nil =>
          obtain ⟨rfl, -⟩ := List.cons.inj hx
          exact hhead
        | cons y ys =>
          obtain ⟨rfl, hrest⟩ := List.cons.inj hx
          obtain ⟨hnext', hrequest, hdeclined⟩ :=
            ih (h.succ (x := x₀) hnext (sent a) hanswer hleader) _ ys hrest
          refine ⟨by simpa using hnext', hrequest, ?_⟩
          rintro z (_ | ⟨_, hz⟩)
          · exact ⟨reply, hanswer, hleader⟩
          · exact hdeclined z hz

variable {t : Transport τ} {group : GroupId} {path : String}

/-- How a submission ends, going by its posts: with the last answer, which is a rejection only if
nobody is left to post to. -/
def Concluded (members : List PeerAddress) (posts : List Exchange) (failure : RpcFailure)
    (result : Except RpcFailure ClientReply) : Prop :=
  match posts.getLast? with
  | none => members = [] ∧ result = .error failure
  | some x => result = x.answer ∧ (x.Declined → successor members posts = none)

theorem Submission.Tracks.conclusion (h : s.Tracks members past) (hnext : s.next? = none) :
    Concluded members past (noPeers group path) (s.conclusion group path) := by
  have hnobody := h.successor_of_none hnext
  have hlast := h.last
  unfold Concluded Submission.conclusion
  cases hpast : past.getLast? with
  | none =>
    obtain rfl := List.getLast?_eq_none_iff.mp hpast
    cases hs : s.last? with
    | none =>
      rw [successor_eq_none_iff] at hnobody
      exact ⟨List.eq_nil_iff_forall_not_mem.mpr fun a ha => by simpa using hnobody a ha, rfl⟩
    | some reply => simp [hs] at hlast
  | some x =>
    cases hs : s.last? with
    | none => simp [hs, hpast] at hlast
    | some reply =>
      have hanswer : x.answer = .ok reply := by simpa [hs, hpast] using hlast
      exact ⟨hanswer.symm, fun _ => hnobody⟩

/-- A submission ends with the last answer to its posts. -/
theorem Submission.Tracks.concluded (h : s.Tracks members past) {n : ℕ}
    (hn : (s.untried t.hosts).length < n) (w : τ) :
    Concluded members (past ++ exchanges t.send request n s w) (noPeers group path)
      (submit t group path request sent s w).result := by
  induction n generalizing past s w with
  | zero => omega
  | succ n ih =>
    cases hnext : s.next? with
    | none =>
      rw [submit_of_none sent hnext, exchanges, hnext, List.append_nil]
      exact h.conclusion hnext
    | some next =>
      obtain ⟨a, s'⟩ := next
      let x₀ : Exchange := ⟨request a, (t.send (request a) w).1⟩
      cases hverdict : verdict (request a) (t.send (request a) w).1 with
      | final result =>
        obtain ⟨hanswer, hdeclined⟩ := Exchange.verdict_eq_final_iff (x := x₀).mp hverdict
        rw [submit_of_final sent hnext hverdict]
        simp only [exchanges, hnext, hverdict, Concluded, List.getLast?_concat]
        exact ⟨hanswer.symm, fun h => absurd h hdeclined⟩
      | declined reply =>
        obtain ⟨hanswer, hleader⟩ := Exchange.verdict_eq_declined_iff (x := x₀).mp hverdict
        have hless := Submission.length_untried_lt hnext
          (sent a ▸ mem_hosts_of_declined hverdict) reply
        rw [submit_of_declined sent hnext hverdict]
        simp only [exchanges, hnext, hverdict]
        rw [List.append_cons]
        exact ih (h.succ (x := x₀) hnext (sent a) hanswer hleader) (by omega) _

end

end Http

end RaftAdmin
