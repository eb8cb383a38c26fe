import RaftAdmin.Proofs.Http.Successor

/-!
# How a change is delivered

A change has to reach the leader, and it must not be carried out twice. This module says what a
change posts, to whom and in which order, when it stops, and what it returns.

## What is proved

* `orderly_exchanges` — whatever the network answers, the posts of a change are orderly.
* `change_delivers` — this holds of the posts that the network records, and the change returns the
  last answer, a rejection only after all members were tried.
-/

namespace RaftAdmin.Http

/-- The request that carries a change to an address. -/
def post (settings : Settings) (path : String) (body : Json.Value) (timeout : Nat)
    (a : PeerAddress) : Request :=
  ⟨.post, settings.scheme, a, path, some body, timeout⟩

/-- The posts of a change are alike, each goes to whom the one before it suggests, and only the last
may be answered by anything but a rejection. -/
structure Orderly (settings : Settings) (path : String) (body : Json.Value) (timeout : Nat)
    (members : List PeerAddress) (posts : List Exchange) : Prop where
  /-- All carry the same change. -/
  alike : ∀ x ∈ posts, x.request = post settings path body timeout x.address
  /-- They go to pairwise distinct addresses. -/
  distinct : (posts.map Exchange.address).Nodup
  /-- The first goes to the first member. -/
  first : ∀ x rest, posts = x :: rest → members.head? = some x.address
  /-- A later one goes to the leader that the reply before it names, if this address was not tried,
  or else to the first member in order that was not tried. -/
  later : ∀ past x y rest, posts = past ++ x :: y :: rest →
    let tried := (past ++ [x]).map Exchange.address
    (∃ hint, x.hint? = some hint ∧ hint ∉ tried ∧ y.address = hint) ∨
      (∀ hint, x.hint? = some hint → hint ∈ tried) ∧
        members.find? (fun a => a ∉ tried) = some y.address
  /-- All but the last are declined: nothing is posted after an answer that is no rejection. -/
  declined : ∀ x ∈ posts.dropLast, x.Declined

theorem orderly_exchanges {τ : Type} (settings : Settings) (path : String) (body : Json.Value)
    (timeout : Nat) (group : Group) (send : Request → τ → Response × τ) (n : ℕ) (w : τ) :
    Orderly settings path body timeout group.addresses
      (exchanges send (post settings path body timeout) n (.start group) w) := by
  have hposts : ∀ ys x rest, exchanges send (post settings path body timeout) n (.start group) w =
      ys ++ x :: rest → _ := (Submission.tracks_start group).exchanges_eq (fun _ => rfl) n w
  generalize exchanges send (post settings path body timeout) n (.start group) w = posts at hposts
  constructor
  case alike =>
    intro x hx
    obtain ⟨ys, rest, rfl⟩ := List.append_of_mem hx
    exact (hposts ys x rest rfl).2.1
  case distinct => exact nodup_of_successor fun ys x rest hx => (hposts ys x rest hx).1
  case first =>
    intro x rest hx
    rw [← successor_nil]
    exact (hposts [] x rest hx).1
  case later =>
    intro past x y rest hx
    have hy : successor group.addresses (past ++ [x]) = some y.address :=
      (hposts (past ++ [x]) y rest (by simp [hx])).1
    by_cases htried : ∀ hint, x.hint? = some hint → hint ∈ (past ++ [x]).map Exchange.address
    · exact .inr ⟨htried, (successor_concat_of_tried htried).symm.trans hy⟩
    · push Not at htried
      obtain ⟨hint, hhint, hfresh⟩ := htried
      rw [successor_concat_of_hint hhint hfresh] at hy
      exact .inl ⟨hint, hhint, hfresh, (Option.some.inj hy).symm⟩
  case declined =>
    rcases List.eq_nil_or_concat posts with rfl | ⟨past, x, rfl⟩
    · simp
    · rw [List.concat_eq_append, List.dropLast_concat]
      exact (hposts past x [] (by simp)).2.2

section

variable {τ : Type} (settings : Settings) (t : Transport τ) (group : Group) (path : String)
  (body : Json.Value) (timeout : Nat)

/-- What a change posts, with the answers, as the network records it. -/
def posts (w : τ) : List Exchange :=
  (change settings t.recording group path body timeout (w, [])).state.2

/-- A change has no more rounds than there are addresses that answer, and one. -/
theorem change_recording (w : τ) :
    change settings t.recording group path body timeout (w, []) =
      let a := change settings t group path body timeout w
      ⟨a.result, (a.state, exchanges t.send (post settings path body timeout) (t.hosts.length + 1)
        (.start group) w), a.events⟩ := by
  have hn : ((Submission.start group).untried t.hosts).length < t.hosts.length + 1 :=
    Nat.lt_succ_of_le (List.length_filter_le _ _)
  have h : submit t.recording group.id path (post settings path body timeout) (fun _ => rfl)
      (.start group) (w, []) = _ := submit_recording _ hn w []
  rw [List.nil_append] at h
  exact h

theorem posts_eq (w : τ) :
    posts settings t group path body timeout w =
      exchanges t.send (post settings path body timeout) (t.hosts.length + 1) (.start group) w :=
  congrArg (fun a => a.state.2) (change_recording settings t group path body timeout w)

theorem posts_orderly (w : τ) :
    Orderly settings path body timeout group.addresses
      (posts settings t group path body timeout w) := by
  rw [posts_eq]
  exact orderly_exchanges settings path body timeout group t.send _ w

/-- A change ends with the last answer, which is a rejection only if nobody is left to post to. -/
theorem change_concluded (w : τ) :
    Concluded group.addresses (posts settings t group path body timeout w)
      (noPeers group.id path) (change settings t group path body timeout w).result := by
  have hn : ((Submission.start group).untried t.hosts).length < t.hosts.length + 1 :=
    Nat.lt_succ_of_le (List.length_filter_le _ _)
  rw [posts_eq]
  exact (Submission.tracks_start group).concluded (fun _ => rfl) hn w

/-- **A change is delivered in order, and at most once to a peer.** Its posts are orderly after any
number of rounds, also in a network where ever new leaders are named. It returns the answer to its
last post: the first that is no rejection, or else a rejection when the leader that it names and all
members were tried. A group without members gets no post. -/
theorem change_delivers :
    (∀ (send : Request → τ → Response × τ) (n : ℕ) (w : τ),
      Orderly settings path body timeout group.addresses
        (exchanges send (post settings path body timeout) n (.start group) w)) ∧
    ∀ w : τ,
      let a := change settings t group path body timeout w
      let xs := posts settings t group path body timeout w
      change settings t.recording group path body timeout (w, []) =
          ⟨a.result, (a.state, xs), a.events⟩ ∧
        Orderly settings path body timeout group.addresses xs ∧
        match xs.getLast? with
        | none => group.peers = [] ∧ a.result = .error (noPeers group.id path)
        | some x => a.result = x.answer ∧ (x.Declined →
            ∀ b ∈ x.hint?.toList ++ group.addresses, b ∈ xs.map Exchange.address) := by
  refine ⟨orderly_exchanges settings path body timeout group, fun w =>
    ⟨?_, posts_orderly settings t group path body timeout w, ?_⟩⟩
  · rw [posts_eq]
    exact change_recording settings t group path body timeout w
  · have h := change_concluded settings t group path body timeout w
    unfold Concluded at h
    cases hlast : (posts settings t group path body timeout w).getLast? with
    | none =>
      rw [hlast] at h
      exact ⟨List.map_eq_nil_iff.mp h.1, h.2⟩
    | some x =>
      rw [hlast] at h
      refine ⟨h.1, fun hx => ?_⟩
      have hnobody := successor_eq_none_iff.mp (h.2 hx)
      rwa [targets, hlast, Option.bind_some] at hnobody

end

end RaftAdmin.Http
