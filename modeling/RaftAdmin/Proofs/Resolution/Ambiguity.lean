import RaftAdmin.Proofs.Resolution.Discipline

/-!
# Ambiguous answers

A request without a group id is ambiguous if the candidates belong to several groups. The resolution
goes by the first candidate that names any, and by how often it names them: an answer that names one
group twice is taken for several groups.

## The model

An answer is a list of group ids as it comes, in which an id may be repeated. `Several` asks for two
of them that differ. Over a cluster an id is repeated if two entries with it hold the same peer.

## What is proved

* `two_le_length_iff` — of two names or more, there are several, or one is repeated.
* **`resolve_ambiguous_iff`** — a request is ambiguous exactly if the first answer that names groups
  names several, or one of them repeatedly.
* `several_of_resolve` — over a cluster whose groups have distinct ids, there are several.
* **`exists_repeated_group`** — a request is ambiguous over a cluster with a single id.
-/

namespace RaftAdmin

open Script (Path)

variable {ids : List GroupId}

/-- Two of the groups differ. -/
def Several (ids : List GroupId) : Prop := ∃ a ∈ ids, ∃ b ∈ ids, a ≠ b

/-- Of two names or more, there are several, or one is repeated. -/
theorem two_le_length_iff :
    2 ≤ ids.length ↔ Several ids ∨ ∃ id n, ids = List.replicate (n + 2) id := by
  constructor
  · intro hlength
    obtain ⟨a, rest, rfl⟩ := List.exists_cons_of_length_pos (show 0 < ids.length by omega)
    by_cases hsame : ∀ b ∈ rest, b = a
    · refine .inr ⟨a, rest.length - 1, List.eq_replicate_iff.mpr ⟨?_, ?_⟩⟩
      · rw [List.length_cons] at hlength ⊢
        omega
      · exact List.forall_mem_cons.mpr ⟨rfl, hsame⟩
    · push Not at hsame
      obtain ⟨b, hb, hne⟩ := hsame
      exact .inl ⟨a, List.mem_cons_self, b, List.mem_cons_of_mem a hb, hne.symm⟩
  · rintro (⟨a, ha, b, hb, hne⟩ | ⟨id, n, rfl⟩)
    · match ids, ha, hb with
      | [c], ha, hb => exact absurd ((List.mem_singleton.mp ha).trans
          (List.mem_singleton.mp hb).symm) hne
      | _ :: _ :: _, _, _ => simp
    · simp

theorem not_several_replicate (n : Nat) (id : GroupId) : ¬ Several (List.replicate n id) := by
  rintro ⟨a, ha, b, hb, hne⟩
  exact hne ((List.eq_of_mem_replicate ha).trans (List.eq_of_mem_replicate hb).symm)

/-- Two of the names differ if none is repeated. -/
theorem several_of_nodup (hids : ids.Nodup) (h : 2 ≤ ids.length) : Several ids := by
  rcases two_le_length_iff.mp h with hseveral | ⟨id, n, rfl⟩
  · exact hseveral
  · have := List.nodup_replicate.mp hids
    omega

namespace Resolution

variable {candidates : Group} {known? : Option GroupId} {reply : Except RpcFailure Unit}
  {listing informing xs : List Turn} {r : Except AdminError ResolvedGroup}

/-! ### Answers that name groups -/

/-- A candidate names these groups. It is asked last, and those asked before it name none. -/
def Advertised (xs : List Turn) (ids : List GroupId) : Prop :=
  ∃ candidates p before, p ∈ candidates.peers ∧
    xs = ⟨.connect candidates, .ok ()⟩ :: before ++ [⟨.listGroups candidates p, .ok ids⟩] ∧
    ∀ x ∈ before, x.groups? = none

/-- Groups are only named in the pass that asks for them. -/
theorem Asking.mem_listing (h : Asking candidates known? reply listing informing r) {x : Turn}
    (hx : x ∈ listing ++ informing) (hids : x.groups? = some ids) : x ∈ listing := by
  have hnone : ∀ {id info?}, Informing candidates id informing info? → x ∉ informing := by
    intro id info? hinforming hx
    obtain ⟨p, -, hp⟩ := Pass.action_eq hinforming hx
    obtain ⟨-, group, q, rfl⟩ := Turn.groups?_eq_some_iff.mp hids
    cases hp
  cases h with
  | refused failure | unlisted hknown hlisting | ambiguous hknown hlisting hlength =>
    rwa [List.append_nil] at hx
  | uninformed hchosen hinforming | informed hchosen hinforming =>
    exact (List.mem_append.mp hx).resolve_right (hnone hinforming)

theorem Asking.advertised_of_ambiguous
    (h : Asking candidates known? reply listing informing (.error (.ambiguousGroup ids))) :
    Advertised (⟨.connect candidates, reply⟩ :: (listing ++ informing)) ids ∧ 2 ≤ ids.length := by
  cases h with
  | ambiguous hknown hlisting hlength =>
    obtain ⟨before, x, rfl, htaken, hpassed⟩ := Pass.exists_last hlisting
    obtain ⟨p, hp, haction⟩ := Pass.action_eq hlisting (List.mem_concat_self ..)
    obtain ⟨hne, group, q, rfl⟩ := Turn.groups?_eq_some_iff.mp htaken
    obtain ⟨rfl, rfl⟩ := Action.listGroups.inj haction
    refine ⟨⟨group, q, before, hp, by simp, hpassed⟩, ?_⟩
    have := List.length_pos_of_ne_nil hne
    omega

/-- Answers that name two groups or more, be they one and the same, make the request ambiguous. -/
theorem Asking.ambiguous_of_advertised (h : Asking candidates known? reply listing informing r)
    (hadvertised : Advertised (⟨.connect candidates, reply⟩ :: (listing ++ informing)) ids)
    (hlength : 2 ≤ ids.length) : r = .error (.ambiguousGroup ids) := by
  obtain ⟨group, p, before, -, hcalls, -⟩ := hadvertised
  have hne : ids ≠ [] := List.ne_nil_of_length_pos (by omega)
  have hids : Turn.groups? ⟨.listGroups group p, .ok ids⟩ = some ids :=
    Turn.groups?_eq_some_iff.mpr ⟨hne, group, p, rfl⟩
  have hx : (⟨.listGroups group p, .ok ids⟩ : Turn) ∈ listing ++ informing := by
    rw [(List.cons.inj hcalls).2]
    exact List.mem_concat_self ..
  rcases h.chosen_of_groups (h.mem_listing hx hids) hids with ⟨id, rfl, -⟩ | hr
  · simp at hlength
  · exact hr

/-- Two names or more make the request ambiguous, and nothing else does. -/
theorem ambiguous_iff_of_path {conf : Configuration} {request : GroupRequest}
    (h : Path (resolve conf request).run xs r) :
    r = .error (.ambiguousGroup ids) ↔ Advertised (Turn.calls xs) ids ∧ 2 ≤ ids.length := by
  rcases asking_of_resolve h with
    ⟨e, hplan, rfl, hcalls⟩ | ⟨seed, candidates, reply, listing, informing, -, hcalls, hasking⟩
  · rw [hcalls]
    constructor
    · intro he
      -- what is wrong with a request that cannot be read is another error
      obtain rfl := Except.error.inj he
      exact (malformed_of_plan hplan).elim
    · rintro ⟨⟨_, _, _, -, hnone, -⟩, -⟩
      cases hnone
  · rw [hcalls]
    constructor
    · rintro rfl
      exact hasking.advertised_of_ambiguous
    · exact fun ⟨hadvertised, hlength⟩ => hasking.ambiguous_of_advertised hadvertised hlength

/-! ### Whether there are several -/

/-- **When a request is ambiguous.** Whatever is replied, that is the error exactly if a candidate
names several groups, or names one of them more than once, and those asked before it name none. -/
theorem resolve_ambiguous_iff {σ : Type} (w : Script.World σ) (conf : Configuration)
    (request : GroupRequest) (s : σ) (ids : List GroupId) :
    ((resolve conf request).run.run w s).1 = .error (.ambiguousGroup ids) ↔
      Advertised (Turn.calls ((resolve conf request).run.turns w s)) ids ∧
        (Several ids ∨ ∃ id n, ids = List.replicate (n + 2) id) := by
  rw [ambiguous_iff_of_path (Script.path_run w _ s), two_le_length_iff]

theorem nodup_groupsOf {c : Cluster} (h : (c.groups.map (·.group.id)).Nodup) (p : PeerId) :
    (c.groupsOf p).Nodup :=
  h.sublist (List.filter_sublist.map _)

/-- Over a cluster whose groups have distinct ids, an ambiguous request names several of the groups
that hold a candidate. -/
theorem several_of_resolve {s : Session Cluster}
    (hdistinct : (s.cluster.groups.map (·.group.id)).Nodup) {conf : Configuration}
    {request : GroupRequest}
    (h : (Session.run Cluster.connector (resolve conf request).run s).1
      = .error (.ambiguousGroup ids)) :
    Several ids ∧ ∃ p : Peer, s.cluster.isReachable p.id ∧ ids = s.cluster.groupsOf p.id := by
  have hpath := Script.path_run (Session.world Cluster.connector) (resolve conf request).run s
  obtain ⟨⟨group, p, before, -, hcalls, -⟩, hlength⟩ := (ambiguous_iff_of_path hpath).mp h
  have hturn : (⟨.listGroups group p, .ok ids⟩ : Turn) ∈
      (resolve conf request).run.turns (Session.world Cluster.connector) s := by
    refine List.mem_of_mem_filter (?_ : _ ∈ Turn.calls _)
    rw [hcalls]
    exact List.mem_concat_self ..
  have htruthful := (resolve_truthful conf request s).1 _ hturn
  change Except.ok ids = if s.cluster.isReachable p.id then _ else _ at htruthful
  split at htruthful
  · next hreachable =>
    obtain rfl := Except.ok.inj htruthful
    exact ⟨several_of_nodup (nodup_groupsOf hdistinct p.id) hlength, p, hreachable, rfl⟩
  · cases htruthful

/-- A cluster with two entries for one group, which hold the same peer. -/
def doubled : Cluster :=
  let group := Group.of .bootstrap [.ofAddress ⟨"h1", 9870⟩]
  (Cluster.empty.addGroup group none).addGroup group none

/-- **A single group that is taken for several.** The only group of a cluster is named twice by its
member, and a request without its id is ambiguous. -/
theorem exists_repeated_group :
    ∃ (c : Cluster) (request : GroupRequest) (ids : List GroupId),
      (∀ g ∈ c.groups, g.group.id = .bootstrap) ∧
      (Session.run Cluster.connector (resolve .empty request).run (.start c .empty none)).1
        = .error (.ambiguousGroup ids) ∧ ¬ Several ids := by
  refine ⟨doubled, ⟨some "h1:9870", none, none⟩, List.replicate 2 .bootstrap, ?_, ?_,
    not_several_replicate _ _⟩
  · decide
  · rw [resolve_eq]
    rfl

end Resolution

end RaftAdmin
