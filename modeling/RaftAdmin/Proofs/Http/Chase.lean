import Mathlib.Data.Set.Card
import RaftAdmin.Proofs.Http.Delivery
import RaftAdmin.Proofs.Wire.Written

/-!
# Following hints comes to an end

A peer that declines may name a leader, who goes to the front of the queue: the queue of a
submission need not get shorter, and leaders may name each other in a circle, name themselves, or
name peers outside of the group. What gets less is the number of addresses that could still decline.

## The model

`Submits` is the loop of a submission address by address: an address that was tried is passed over,
one that was not is posted to. A derivation is a loop that has come to its end, with the posts that
were made, the result, and the state the network is left in. It is there for every network, whereas
`submit` asks for a transport, which lists the hosts that may answer.

`Answering` are the addresses that answer with a reply that can be read, at one time or another.
Every other address fails, in whatever way.

## What is proved

* `Submits.skip` — passing over addresses that were tried makes no post.
* `exists_submits` — the loop ends if only finitely many addresses may decline; it posts to each of
  them at most once, and once more.
* `Submits.deterministic` — it ends in one way only.
* `submits_submit` — over a transport it is the submission.
* **`change_ends`** — a change ends, with at most one post more than addresses answer.
* `change_ends_misleading` — there may be one post more.
-/

namespace RaftAdmin.Http

section

variable {τ : Type} (send : Request → τ → Response × τ) (request : PeerAddress → Request)

/-- What comes of a request to an address. -/
def exchange (a : PeerAddress) (w : τ) : Exchange := ⟨request a, (send (request a) w).1⟩

/-- The addresses that answer, at one time or another. -/
def Answering : Set PeerAddress := {a | ∃ w reply, (exchange send request a w).answer = .ok reply}

/-- `Submits send request group path s w xs result w'`: from the submission `s` in the state `w` of
the network, the posts `xs` are made, the submission ends with `result`, and the network is left in
the state `w'`. -/
inductive Submits (group : GroupId) (path : String) :
    Submission → τ → List Exchange → Except RpcFailure ClientReply → τ → Prop where
  /-- No address is left. -/
  | exhausted {tried : List PeerAddress} {last? : Option ClientReply} {w : τ} :
      Submits group path ⟨[], tried, last?⟩ w []
        (Submission.conclusion group path ⟨[], tried, last?⟩) w
  /-- The next address was tried. -/
  | skipped {a : PeerAddress} {pending tried : List PeerAddress} {last? : Option ClientReply}
      {w w' : τ} {xs : List Exchange} {result : Except RpcFailure ClientReply} :
      a ∈ tried → Submits group path ⟨pending, tried, last?⟩ w xs result w' →
        Submits group path ⟨a :: pending, tried, last?⟩ w xs result w'
  /-- The answer of the next address is final. -/
  | final {a : PeerAddress} {pending tried : List PeerAddress} {last? : Option ClientReply}
      {w : τ} {result : Except RpcFailure ClientReply} :
      a ∉ tried → verdict (request a) (send (request a) w).1 = .final result →
        Submits group path ⟨a :: pending, tried, last?⟩ w [exchange send request a w] result
          (send (request a) w).2
  /-- The next address declines, and the leader that it names is tried next. -/
  | declined {a : PeerAddress} {pending tried : List PeerAddress} {last? : Option ClientReply}
      {w w' : τ} {reply : ClientReply} {xs : List Exchange}
      {result : Except RpcFailure ClientReply} :
      a ∉ tried → verdict (request a) (send (request a) w).1 = .declined reply →
        Submits group path (.decline ⟨pending, tried ++ [a], last?⟩ reply) (send (request a) w).2
          xs result w' →
        Submits group path ⟨a :: pending, tried, last?⟩ w (exchange send request a w :: xs) result
          w'

end

section

variable {τ : Type} {send : Request → τ → Response × τ} {request : PeerAddress → Request}
  {group : GroupId} {path : String} {s s' : Submission} {a : PeerAddress} {w w' v : τ}
  {xs ys : List Exchange} {result r : Except RpcFailure ClientReply} {reply : ClientReply}

/-! ### Rounds of the loop -/

/-- Passing over addresses that were tried makes no post. -/
theorem Submits.skip
    (h : Submits send request group path
      { s with pending := s.pending.dropWhile fun a => a ∈ s.tried } w xs result w') :
    Submits send request group path s w xs result w' := by
  obtain ⟨pending, tried, last?⟩ := s
  induction pending with
  | nil => exact h
  | cons a pending ih =>
    by_cases ha : a ∈ tried
    · refine .skipped ha (ih ?_)
      simpa [List.dropWhile_cons_of_pos, ha] using h
    · simpa [List.dropWhile_cons_of_neg, ha] using h

theorem submits_of_none (h : s.next? = none) (w : τ) :
    Submits send request group path s w [] (s.conclusion group path) w := by
  refine .skip ?_
  unfold Submission.next? at h
  split at h
  · rename_i hdrop
    rw [hdrop]
    exact .exhausted
  · cases h

/-- The address that is tried next stands first after passing over those that were tried. -/
theorem Submission.dropWhile_of_next? (h : s.next? = some (a, s')) :
    s.pending.dropWhile (fun a => a ∈ s.tried) = a :: s'.pending ∧
      s' = ⟨s'.pending, s.tried ++ [a], s.last?⟩ := by
  unfold Submission.next? at h
  split at h
  · cases h
  · rename_i hdrop
    obtain ⟨rfl, rfl⟩ := Prod.mk.inj (Option.some.inj h)
    exact ⟨hdrop, rfl⟩

theorem submits_of_final (h : s.next? = some (a, s'))
    (hverdict : verdict (request a) (send (request a) w).1 = .final result) :
    Submits send request group path s w [exchange send request a w] result
      (send (request a) w).2 := by
  refine .skip ?_
  rw [(Submission.dropWhile_of_next? h).1]
  exact .final (Submission.not_mem_tried_of_next? h) hverdict

theorem submits_of_declined (h : s.next? = some (a, s'))
    (hverdict : verdict (request a) (send (request a) w).1 = .declined reply)
    (hrest : Submits send request group path (s'.decline reply) (send (request a) w).2 xs result
      w') :
    Submits send request group path s w (exchange send request a w :: xs) result w' := by
  obtain ⟨hdrop, hs'⟩ := Submission.dropWhile_of_next? h
  refine .skip ?_
  rw [hdrop]
  rw [hs'] at hrest
  exact .declined (Submission.not_mem_tried_of_next? h) hverdict hrest

/-! ### The end of the loop -/

/-- The loop ends if only finitely many addresses may decline. Each of them is posted to at most
once, and at most one post goes to another address. -/
theorem exists_submits (group : GroupId) (path : String) {hosts : List PeerAddress}
    (hhosts : ∀ a w reply, verdict (request a) (send (request a) w).1 = .declined reply →
      a ∈ hosts) (s : Submission) (w : τ) :
    ∃ xs result w', Submits send request group path s w xs result w' ∧
      xs.length ≤ (s.untried hosts).length + 1 := by
  -- An address that declines was not tried before and counts as tried from then on.
  induction hn : (s.untried hosts).length using Nat.strong_induction_on generalizing s w with
  | _ n ih =>
    cases hnext : s.next? with
    | none => exact ⟨[], _, w, submits_of_none hnext w, Nat.zero_le _⟩
    | some next =>
      obtain ⟨a, s'⟩ := next
      cases hverdict : verdict (request a) (send (request a) w).1 with
      | final result => exact ⟨_, result, _, submits_of_final hnext hverdict, by simp⟩
      | declined reply =>
        have hless := Submission.length_untried_lt hnext (hhosts a w reply hverdict) reply
        obtain ⟨xs, result, w', hxs, hlength⟩ :=
          ih _ (hn ▸ hless) (s'.decline reply) (send (request a) w).2 rfl
        refine ⟨_, result, w', submits_of_declined hnext hverdict hxs, ?_⟩
        rw [List.length_cons]
        omega

/-- The loop ends in one way only. -/
theorem Submits.deterministic (h : Submits send request group path s w xs result w')
    (h' : Submits send request group path s w ys r v) : ys = xs ∧ r = result ∧ v = w' := by
  induction h generalizing ys with
  | exhausted =>
    cases h'
    exact ⟨rfl, rfl, rfl⟩
  | skipped ha _ ih =>
    cases h' with
    | skipped _ h' => exact ih h'
    | final ha' => exact absurd ha ha'
    | declined ha' => exact absurd ha ha'
  | final ha hverdict =>
    cases h' with
    | skipped ha' => exact absurd ha' ha
    | final _ hverdict' =>
      obtain rfl := Verdict.final.inj (hverdict'.symm.trans hverdict)
      exact ⟨rfl, rfl, rfl⟩
    | declined _ hverdict' => cases hverdict'.symm.trans hverdict
  | declined ha hverdict _ ih =>
    cases h' with
    | skipped ha' => exact absurd ha' ha
    | final _ hverdict' => cases hverdict'.symm.trans hverdict
    | declined _ hverdict' h' =>
      obtain rfl := Verdict.declined.inj (hverdict'.symm.trans hverdict)
      obtain ⟨rfl, hrest⟩ := ih h'
      exact ⟨rfl, hrest⟩

/-! ### Addresses that answer -/

theorem answering_of_declined
    (h : verdict (request a) (send (request a) w).1 = .declined reply) :
    a ∈ Answering send request :=
  ⟨w, reply, (Exchange.verdict_eq_declined_iff (x := exchange send request a w).mp h).1⟩

/-- The loop ends with at most one post more than addresses answer. -/
theorem exists_submits_of_finite (group : GroupId) (path : String)
    (hfinite : (Answering send request).Finite) (s : Submission) (w : τ) :
    ∃ xs result w', Submits send request group path s w xs result w' ∧
      xs.length ≤ (Answering send request).ncard + 1 := by
  have hhosts : ∀ a w reply, verdict (request a) (send (request a) w).1 = .declined reply →
      a ∈ hfinite.toFinset.toList :=
    fun a w reply h => by simpa using answering_of_declined h
  obtain ⟨xs, result, w', hxs, hlength⟩ := exists_submits group path hhosts s w
  refine ⟨xs, result, w', hxs, hlength.trans ?_⟩
  have huntried : (s.untried hfinite.toFinset.toList).length ≤ hfinite.toFinset.toList.length :=
    List.length_filter_le _ _
  rw [Set.ncard_eq_toFinset_card _ hfinite, ← Finset.length_toList]
  omega

variable {t : Transport τ} (sent : ∀ a, (request a).address = a)

include sent in
/-- Of a transport only the hosts answer. -/
theorem finite_answering (t : Transport τ) : (Answering t.send request).Finite := by
  refine t.hosts.finite_toSet.subset ?_
  rintro a ⟨w, reply, hreply⟩
  by_contra ha
  have hfailed := t.silent (request a) w ((sent a).symm ▸ ha)
  rw [exchange, Exchange.answer, hfailed] at hreply
  cases hreply

/-- Over a transport the loop is the submission. -/
theorem submits_submit {n : ℕ} (hn : (s.untried t.hosts).length < n) (w : τ) :
    Submits t.send request group path s w (exchanges t.send request n s w)
      (submit t group path request sent s w).result
      (submit t group path request sent s w).state := by
  induction n generalizing s w with
  | zero => omega
  | succ n ih =>
    cases hnext : s.next? with
    | none =>
      rw [submit_of_none sent hnext, exchanges, hnext]
      exact submits_of_none hnext w
    | some next =>
      obtain ⟨a, s'⟩ := next
      cases hverdict : verdict (request a) (t.send (request a) w).1 with
      | final result =>
        rw [submit_of_final sent hnext hverdict]
        simp only [exchanges, hnext, hverdict]
        exact submits_of_final hnext hverdict
      | declined reply =>
        have hless := Submission.length_untried_lt hnext
          (sent a ▸ mem_hosts_of_declined hverdict) reply
        rw [submit_of_declined sent hnext hverdict]
        simp only [exchanges, hnext, hverdict]
        exact submits_of_declined hnext hverdict (ih (by omega) _)

end

/-! ### Changes -/

section

variable {τ : Type} (settings : Settings) (group : Group) (path : String) (body : Json.Value)
  (timeout : Nat)

/-- The posts of a change are those of the loop, which ends with the result of the change. -/
theorem submits_change (t : Transport τ) (w : τ) :
    Submits t.send (post settings path body timeout) group.id path (.start group) w
      (posts settings t group path body timeout w)
      (change settings t group path body timeout w).result
      (change settings t group path body timeout w).state := by
  have hn : ((Submission.start group).untried t.hosts).length < t.hosts.length + 1 :=
    Nat.lt_succ_of_le (List.length_filter_le _ _)
  rw [posts_eq]
  exact submits_submit (fun _ => rfl) hn w

/-- **Following hints comes to an end.** Whoever declines and whomever they name as the leader, a
change ends, and in one way only, if only finitely many addresses answer; and it makes at most one
post more than addresses answer. Over a transport the posts are those that the network records, and
the end is that of the change. -/
theorem change_ends :
    (∀ (send : Request → τ → Response × τ) (w : τ),
      let answering := Answering send (post settings path body timeout)
      answering.Finite → ∃ xs result w',
        Submits send (post settings path body timeout) group.id path (.start group) w xs result w' ∧
        (∀ ys r v, Submits send (post settings path body timeout) group.id path (.start group) w
          ys r v → ys = xs ∧ r = result ∧ v = w') ∧
        xs.length ≤ answering.ncard + 1) ∧
    ∀ (t : Transport τ) (w : τ),
      let a := change settings t group path body timeout w
      let xs := posts settings t group path body timeout w
      Submits t.send (post settings path body timeout) group.id path (.start group) w xs
          a.result a.state ∧
        xs.length ≤ (Answering t.send (post settings path body timeout)).ncard + 1 := by
  constructor
  · intro send w answering hfinite
    obtain ⟨xs, result, w', hxs, hlength⟩ :=
      exists_submits_of_finite group.id path hfinite (.start group) w
    exact ⟨xs, result, w', hxs, fun ys r v => hxs.deterministic, hlength⟩
  · intro t w a xs
    have hxs : Submits t.send (post settings path body timeout) group.id path (.start group) w xs
        a.result a.state := submits_change settings group path body timeout t w
    have hfinite : (Answering t.send (post settings path body timeout)).Finite :=
      finite_answering (fun _ => rfl) t
    obtain ⟨ys, result, w', hys, hlength⟩ :=
      exists_submits_of_finite group.id path hfinite (.start group) w
    obtain ⟨rfl, -⟩ := hys.deterministic hxs
    exact ⟨hxs, hlength⟩

end

/-! ### Peers that mislead -/

/-- Whom the peers of a network name as the leader: the first a peer outside of the group, that one
the first, and the second itself. -/
def misleading : List (PeerAddress × PeerAddress) :=
  [(⟨"h1", 9870⟩, ⟨"h3", 9870⟩), (⟨"h2", 9870⟩, ⟨"h2", 9870⟩), (⟨"h3", 9870⟩, ⟨"h1", 9870⟩)]

/-- What a peer replies that names a leader. -/
def redirection (leader : PeerAddress) : ClientReply := ⟨false, none, true, some leader⟩

/-- The network in which these peers decline, and the responses of all others break off. -/
def misleadingSend (r : Request) (w : Unit) : Response × Unit :=
  match misleading.lookup r.address with
  | some leader => (.complete 503 (Json.render (Wire.writeReply (redirection leader))), w)
  | none => (.broken, w)

theorem verdict_misleadingSend {r : Request} {leader : PeerAddress}
    (h : misleading.lookup r.address = some leader) (w : Unit) :
    verdict r (misleadingSend r w).1 = .declined (redirection leader) := by
  have hlegible : ∀ e ∈ misleading, e.2.Legible := by
    simp only [misleading, List.forall_mem_cons, PeerAddress.Legible]
    exact ⟨⟨'h', ['3'], by decide⟩, ⟨'h', ['2'], by decide⟩, ⟨'h', ['1'], by decide⟩, by simp⟩
  have hleader : leader.Legible := by
    obtain ⟨l₁, l₂, hsplit, -⟩ := List.lookup_eq_some_iff.mp h
    exact hlegible (r.address, leader) (hsplit ▸ by simp)
  have hread : (Json.read (Json.render (Wire.writeReply (redirection leader)))).bind
      Wire.readReply = some (redirection leader) := by
    rw [Json.read_render (Wire.faithful_writeReply _), Option.bind_some]
    exact Wire.readReply_writeReply fun a ha => Option.some.inj ha ▸ hleader
  have hanswer : decode Wire.readReply r (misleadingSend r w).1 = .ok (redirection leader) := by
    simp only [misleadingSend, h, decode, hread]
  rw [verdict, hanswer]
  rfl

/-- These peers answer, and nobody else does. -/
theorem answering_misleadingSend {request : PeerAddress → Request}
    (sent : ∀ a, (request a).address = a) :
    Answering misleadingSend request = ↑(misleading.map Prod.fst).toFinset := by
  ext a
  have hmem : a ∈ misleading.map Prod.fst ↔ misleading.lookup a ≠ none := by
    simp only [List.mem_map, ne_eq, List.lookup_eq_none_iff, bne_iff_ne, not_forall, not_not,
      exists_prop]
    exact exists_congr fun e => and_congr_right' eq_comm
  rw [Finset.mem_coe, List.mem_toFinset, hmem]
  constructor
  · rintro ⟨w, reply, hreply⟩ hnone
    rw [← sent a] at hnone
    simp [exchange, Exchange.answer, misleadingSend, hnone, decode] at hreply
  · intro hsome
    obtain ⟨leader, hleader⟩ := Option.ne_none_iff_exists'.mp hsome
    rw [← sent a] at hleader
    exact answering_of_declined (verdict_misleadingSend hleader ())

/-- Three members, one of them out of order, and two leaders that are named in a circle: the change
ends with the fourth post, when three addresses answer. -/
theorem change_ends_misleading :
    let request := post ⟨"http", 15000⟩ "/groups" .null 15000
    let group := Group.of .bootstrap
      [.ofAddress ⟨"h1", 9870⟩, .ofAddress ⟨"h2", 9870⟩, .ofAddress ⟨"h4", 9870⟩]
    (Answering misleadingSend request).Finite ∧
      (Answering misleadingSend request).ncard = 3 ∧
      ∃ xs result w',
        Submits misleadingSend request group.id "/groups" (.start group) () xs result w' ∧
        xs.map Exchange.address
          = [⟨"h1", 9870⟩, ⟨"h3", 9870⟩, ⟨"h2", 9870⟩, ⟨"h4", 9870⟩] ∧
        xs.length ≤ (Answering misleadingSend request).ncard + 1 := by
  intro request group
  have hanswering : Answering misleadingSend request = ↑(misleading.map Prod.fst).toFinset :=
    answering_misleadingSend fun _ => rfl
  have hfinite : (Answering misleadingSend request).Finite :=
    hanswering ▸ Finset.finite_toSet _
  have hcard : (Answering misleadingSend request).ncard = 3 := by
    rw [hanswering, Set.ncard_coe_finset]
    decide
  have hdeclined {a leader : PeerAddress} (h : misleading.lookup a = some leader) :
      verdict (request a) (misleadingSend (request a) ()).1 = .declined (redirection leader) :=
    verdict_misleadingSend h ()
  have hrun : Submits misleadingSend request group.id "/groups" (.start group) () _ _ () :=
    .declined (by decide) (hdeclined rfl) <|
    .declined (by decide) (hdeclined rfl) <|
    .skipped (by decide) <|
    .declined (by decide) (hdeclined rfl) <|
    .skipped (by decide) <|
    .final (by decide) rfl
  obtain ⟨xs, result, w', hxs, hunique, hlength⟩ :=
    (change_ends ⟨"http", 15000⟩ group "/groups" .null 15000).1 misleadingSend () hfinite
  obtain ⟨rfl, -, -⟩ := hunique _ _ _ hrun
  exact ⟨hfinite, hcard, _, result, w', hxs, rfl, hlength⟩

end RaftAdmin.Http
