import RaftAdmin.Proofs.Cluster.Change
import RaftAdmin.Proofs.Cluster.Clients

/-!
# The commit index of a group

The commit index of a group counts the configurations that the group accepts, from any value that it
is set to. It is kept in 64 bits, and counts modulo `2 ^ 64`.

## The model

An `Operation` adjusts a setting of the cluster or is an action of a command. Since several groups
can be added under one id, a group is followed by its place in the cluster, which it keeps.
`Operation.accepted` says that the group in a place accepts a configuration, and `acceptances`
counts these in a run.

## What is proved

* `getElem?_update` — only the group in the place of an id is changed.
* `exists_next` — what one operation makes of the group in a place.
* `commitIndex_perform` — what a run makes of the commit index, if nobody sets it.
* **`commitIndex_counts`** — one operation and a run, and exactly when the index has grown.
* `exists_wrapped_index` — the index after the last one is zero.
-/

namespace RaftAdmin.Cluster

/-- What is done with a cluster. -/
inductive Operation where
  /-- A setting is adjusted. -/
  | adjust (setting : Setting)
  /-- A command acts. -/
  | act (action : Action)

/-- The session after an operation. -/
def Operation.next (s : Session Cluster) : Operation → Session Cluster
  | .adjust setting => { s with cluster := s.cluster.adjust setting }
  | .act action => (Session.answer connector action s).2

/-- The session after some operations. -/
def perform : List Operation → Session Cluster → Session Cluster
  | [], s => s
  | op :: ops, s => perform ops (op.next s)

/-- The place of the group to which requests with an id go. -/
def place? (c : Cluster) (id : GroupId) : Option Nat :=
  c.groups.findIdx? fun g => g.group.id = id

/-- Whether the operation is a configuration that the group in a place accepts. -/
def Operation.accepted (c : Cluster) (i : Nat) : Operation → Bool
  | .act (.setConfiguration group peers) =>
    c.place? group.id = some i &&
      match (c.configure group.id peers).result with
      | .ok reply => reply.success
      | .error _ => false
  | _ => false

/-- How many configurations the group in a place accepts in a run. -/
def acceptances (i : Nat) : List Operation → Session Cluster → Nat
  | [], _ => 0
  | op :: ops, s => (op.accepted s.cluster i).toNat + acceptances i ops (op.next s)

variable {ids : List GroupId} {c : Cluster} {id : GroupId} {g : GroupState} {i : Nat}
  {s : Session Cluster}

theorem Reached.adjust (h : Reached ids c) (setting : Setting) :
    ∃ ids', Reached ids' (c.adjust setting) := by
  cases setting with
  | group group leader? => exact ⟨_, h.addGroup group leader?⟩
  | unreachable id => exact ⟨_, h.setUnreachable id⟩
  | rejectedConfiguration exception => exact ⟨_, h.rejectConfiguration exception⟩
  | rejectedTransfer exception => exact ⟨_, h.rejectTransfer exception⟩
  | failedTransfer => exact ⟨_, h.failTransfer⟩
  | commitIndex id index => exact ⟨_, h.setCommitIndex id index⟩

/-- Operations lead from states that can be reached to states that can be reached. -/
theorem Reached.perform (h : Reached ids s.cluster) (ops : List Operation) :
    ∃ ids', Reached ids' (perform ops s).cluster := by
  induction ops generalizing ids s with
  | nil => exact ⟨ids, h⟩
  | cons op ops ih =>
    cases op with
    | adjust setting =>
      obtain ⟨ids', h'⟩ := h.adjust setting
      exact ih (s := { s with cluster := s.cluster.adjust setting }) h'
    | act action => exact ih (h.act action)

/-! ### Places -/

theorem id_of_place? (h : c.place? id = some i) (hg : c.groups[i]? = some g) : g.group.id = id := by
  obtain ⟨hi, hid, -⟩ := List.findIdx?_eq_some_iff_getElem.mp h
  obtain rfl := Option.some.inj ((List.getElem?_eq_getElem hi).symm.trans hg)
  simpa using hid

/-- Only the group in the place of an id is changed. -/
theorem getElem?_update (f : GroupState → GroupState) :
    (c.update id f).groups[i]? =
      if c.place? id = some i then c.groups[i]?.map f else c.groups[i]? := by
  unfold update place?
  dsimp only
  induction c.groups generalizing i with
  | nil => simp [updateFirst]
  | cons b bs ih =>
    rw [updateFirst, List.findIdx?_cons]
    by_cases hb : b.group.id = id
    · cases i <;> simp [hb]
    · cases i <;> simp [hb, ih]

/-- A change that keeps ids and commit indices keeps those of every group. -/
theorem exists_update {f : GroupState → GroupState} (hf : ∀ g, (f g).group.id = g.group.id)
    (hindex : ∀ g, (f g).commitIndex = g.commitIndex) (hg : c.groups[i]? = some g) :
    ∃ g', (c.update id f).groups[i]? = some g' ∧ g'.group.id = g.group.id ∧
      g'.commitIndex = g.commitIndex := by
  rw [getElem?_update, hg]
  split
  · exact ⟨f g, rfl, hf g, hindex g⟩
  · exact ⟨g, rfl, rfl, rfl⟩

/-! ### Operations -/

/-- What an operation makes of the group in a place: its id stays, and its commit index counts what
it accepts, unless it is set. -/
def Operation.Takes (op : Operation) (c : Cluster) (i : Nat) (g g' : GroupState) : Prop :=
  g'.group.id = g.group.id ∧
    ((∀ index, op ≠ .adjust (.commitIndex g.group.id index)) →
      g'.commitIndex = g.commitIndex + if op.accepted c i then 1 else 0)

theorem Operation.takes_of_eq {op : Operation} {g' : GroupState} (hid : g'.group.id = g.group.id)
    (hindex : g'.commitIndex = g.commitIndex) (haccepted : op.accepted c i = false) :
    op.Takes c i g g' :=
  ⟨hid, fun _ => by simp [hindex, haccepted]⟩

theorem exists_configure (group : Group) (peers : List Peer) (hg : c.groups[i]? = some g) :
    ∃ g', (c.configure group.id peers).state.groups[i]? = some g' ∧
      (Operation.act (.setConfiguration group peers)).Takes c i g g' := by
  rcases c.configure_cases group.id peers with ⟨hgroups, hdeclined⟩ | ⟨-, -, hresult, hgroups⟩
  · refine ⟨g, hgroups ▸ hg, Operation.takes_of_eq rfl rfl ?_⟩
    rw [Operation.accepted]
    cases hresult : (c.configure group.id peers).result with
    | error e => simp
    | ok reply => simp [hdeclined reply hresult]
  · rw [hgroups, getElem?_update]
    by_cases hplace : c.place? group.id = some i
    · refine ⟨g.reconfigure group.id peers, by simp [hplace, hg], (id_of_place? hplace hg).symm,
        fun _ => ?_⟩
      simp [Operation.accepted, hplace, hresult, ClientReply.ok, GroupState.reconfigure]
    · exact ⟨g, by simp [hplace, hg], Operation.takes_of_eq rfl rfl
        (by simp [Operation.accepted, hplace])⟩

theorem exists_transfer (id : GroupId) (target : PeerId) (timeout : Nat)
    (hg : c.groups[i]? = some g) :
    ∃ g', (c.transfer id target timeout).state.groups[i]? = some g' ∧
      g'.group.id = g.group.id ∧ g'.commitIndex = g.commitIndex := by
  rcases c.transfer_cases id target timeout with ⟨hgroups, -⟩ | ⟨-, -, -, -, hgroups⟩
  · exact ⟨g, hgroups ▸ hg, rfl, rfl⟩
  · rw [hgroups]
    exact exists_update (fun _ => rfl) (fun _ => rfl) hg

/-- What one operation makes of the group in a place. -/
theorem exists_next (op : Operation) (hg : s.cluster.groups[i]? = some g) :
    ∃ g', (op.next s).cluster.groups[i]? = some g' ∧ op.Takes s.cluster i g g' := by
  cases op with
  | adjust setting =>
    cases setting with
    | group group leader? =>
      have hi := (List.getElem?_eq_some_iff.mp hg).1
      exact ⟨g, (List.getElem?_append_left hi).trans hg, Operation.takes_of_eq rfl rfl rfl⟩
    | commitIndex id index =>
      change ∃ g', (s.cluster.update id _).groups[i]? = some g' ∧ _
      rw [getElem?_update, hg]
      by_cases hplace : s.cluster.place? id = some i
      · refine ⟨{ g with commitIndex := index }, if_pos hplace, rfl, fun hnot => ?_⟩
        exact absurd (by rw [id_of_place? hplace hg]) (hnot index)
      · exact ⟨g, if_neg hplace, Operation.takes_of_eq rfl rfl rfl⟩
    | _ => exact ⟨g, hg, Operation.takes_of_eq rfl rfl rfl⟩
  | act action =>
    cases action with
    | setConfiguration group peers => exact exists_configure group peers hg
    | transferLeadership group target timeout =>
      obtain ⟨g', hg', hid, hindex⟩ := exists_transfer group.id target timeout hg
      exact ⟨g', hg', Operation.takes_of_eq hid hindex rfl⟩
    | _ => exact ⟨g, hg, Operation.takes_of_eq rfl rfl rfl⟩

/-- What a run makes of the commit index, if nobody sets it. -/
theorem commitIndex_perform (ops : List Operation) (hg : s.cluster.groups[i]? = some g)
    (hset : ∀ index, .adjust (.commitIndex g.group.id index) ∉ ops) :
    ∃ g', (perform ops s).cluster.groups[i]? = some g' ∧ g'.group.id = g.group.id ∧
      g'.commitIndex = g.commitIndex + UInt64.ofNat (acceptances i ops s) := by
  induction ops generalizing s g with
  | nil => exact ⟨g, hg, rfl, by simp [acceptances]⟩
  | cons op ops ih =>
    obtain ⟨g', hg', hid, hindex⟩ := exists_next op hg
    have hop := hindex fun index heq => hset index (heq ▸ List.mem_cons_self)
    obtain ⟨g'', hg'', hid', hindex'⟩ := ih hg' fun index hmem =>
      hset index (List.mem_cons_of_mem _ (hid ▸ hmem))
    refine ⟨g'', hg'', hid'.trans hid, ?_⟩
    rw [hindex', hop, acceptances, UInt64.ofNat_add, ← UInt64.add_assoc]
    cases op.accepted s.cluster i <;> rfl

/-- The sum of a word and a number is exact as long as 64 bits are enough. -/
theorem toNat_add_ofNat_eq_iff (x : UInt64) (n : Nat) :
    (x + UInt64.ofNat n).toNat = x.toNat + n ↔ x.toNat + n < UInt64.size := by
  rw [UInt64.toNat_add, UInt64.toNat_ofNat', Nat.add_mod_mod]
  constructor
  · intro h
    rw [← h]
    exact Nat.mod_lt _ (by decide)
  · exact Nat.mod_eq_of_lt

/-- **The commit index counts.** A configuration that a group accepts takes the commit index of the
group one further, and this is the next number exactly if 64 bits have one; no other operation
changes the index but the one that sets it. In a run without the latter, whatever is declined or
fails on the way, the index grows by the number of accepted configurations, exactly as long as 64
bits are enough. -/
theorem commitIndex_counts (hg : s.cluster.groups[i]? = some g) :
    (∀ op : Operation, ∃ g', (op.next s).cluster.groups[i]? = some g' ∧
      g'.group.id = g.group.id ∧
      (op.accepted s.cluster i = true → g'.commitIndex = g.commitIndex + 1 ∧
        (g'.commitIndex.toNat = g.commitIndex.toNat + 1 ↔ g.commitIndex.toNat + 1 < UInt64.size)) ∧
      (op.accepted s.cluster i = false →
        (∀ index, op ≠ .adjust (.commitIndex g.group.id index)) →
          g'.commitIndex = g.commitIndex)) ∧
    ∀ ops : List Operation, (∀ index, .adjust (.commitIndex g.group.id index) ∉ ops) →
      ∃ g', (perform ops s).cluster.groups[i]? = some g' ∧ g'.group.id = g.group.id ∧
        g'.commitIndex = g.commitIndex + UInt64.ofNat (acceptances i ops s) ∧
        (g'.commitIndex.toNat = g.commitIndex.toNat + acceptances i ops s ↔
          g.commitIndex.toNat + acceptances i ops s < UInt64.size) := by
  refine ⟨fun op => ?_, fun ops hset => ?_⟩
  · obtain ⟨g', hg', hid, hindex⟩ := exists_next op hg
    refine ⟨g', hg', hid, fun haccepted => ?_, fun hdeclined hset => ?_⟩
    · have hset : ∀ index, op ≠ .adjust (.commitIndex g.group.id index) := by
        rintro index rfl
        cases haccepted
      have hnext : g'.commitIndex = g.commitIndex + 1 := by simpa [haccepted] using hindex hset
      exact ⟨hnext, hnext ▸ toNat_add_ofNat_eq_iff g.commitIndex 1⟩
    · simpa [hdeclined] using hindex hset
  · obtain ⟨g', hg', hid, hindex⟩ := commitIndex_perform ops hg hset
    exact ⟨g', hg', hid, hindex, hindex ▸ toNat_add_ofNat_eq_iff g.commitIndex _⟩

/-- A group of one with a commit index. -/
def numbered (index : UInt64) : Session Cluster :=
  perform [.adjust (.group (.of .bootstrap [.ofAddress ⟨"h1", 9870⟩]) none),
    .adjust (.commitIndex .bootstrap index)] (.start .empty .empty none)

/-- A second member for it. -/
def enlargement : Operation :=
  .act (.setConfiguration (.of .bootstrap []) [.ofAddress ⟨"h1", 9870⟩, .ofAddress ⟨"h2", 9870⟩])

theorem commitIndex_counts_declined :
    ∃ g g', (numbered 41).cluster.groups[0]? = some g ∧
      (perform [enlargement, .adjust (.rejectedConfiguration "busy"), enlargement]
        (numbered 41)).cluster.groups[0]? = some g' ∧
      g'.commitIndex = 42 := by
  have hg : (numbered 41).cluster.groups[0]? =
      some ⟨.of .bootstrap [.ofAddress ⟨"h1", 9870⟩], none, 41⟩ := rfl
  have hcount : acceptances 0 [enlargement, .adjust (.rejectedConfiguration "busy"), enlargement]
      (numbered 41) = 1 := by decide
  obtain ⟨g', hg', -, hindex, -⟩ := (commitIndex_counts hg).2
    [enlargement, .adjust (.rejectedConfiguration "busy"), enlargement] (by simp [enlargement])
  rw [hcount] at hindex
  exact ⟨_, g', hg, hg', hindex⟩

/-- After the last commit index comes zero. -/
theorem exists_wrapped_index :
    ∃ ids g g', Reached ids (numbered 18446744073709551615).cluster ∧
      (numbered 18446744073709551615).cluster.groups[0]? = some g ∧
      enlargement.accepted (numbered 18446744073709551615).cluster 0 = true ∧
      (enlargement.next (numbered 18446744073709551615)).cluster.groups[0]? = some g' ∧
      g.commitIndex.toNat + 1 = UInt64.size ∧ g'.commitIndex.toNat = 0 := by
  obtain ⟨ids, hreached⟩ := Reached.empty.perform (s := .start .empty .empty none)
    [.adjust (.group (.of .bootstrap [.ofAddress ⟨"h1", 9870⟩]) none),
      .adjust (.commitIndex .bootstrap 18446744073709551615)]
  exact ⟨ids, _, _, hreached, rfl, by decide, rfl, rfl, rfl⟩

end RaftAdmin.Cluster
