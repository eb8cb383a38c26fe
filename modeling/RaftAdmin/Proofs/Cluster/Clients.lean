import RaftAdmin.Cluster.Basic
import RaftAdmin.Proofs.Script.Connection

/-!
# The clients of a cluster

A cluster counts its open connections. A client opens a connection, calls the cluster over it, and
drops it once; several clients do so in any order, while groups are added and switches are set.

## The model

`Held clients c` says that `c` can come about, and lists the groups whose connections are then open,
the one opened last in front. Only an open connection is dropped, and calls go over open ones, which
is what owning a client amounts to. Any of them can be the next to be dropped.

## What is proved

* **`Held.openClients_eq`** — the count is the number of clients that are open, so that no drop
  finds it at zero.
* `Held.answer` — what a turn makes of the connections of one plan, while others are open.
-/

namespace RaftAdmin.Cluster

/-- What is adjusted about a cluster other than by calling it. -/
inductive Setting where
  /-- A group with its leader is added. -/
  | group (group : Group) (leader? : Option PeerId)
  /-- A peer is unreachable. -/
  | unreachable (id : PeerId)
  /-- Configuration changes are rejected. -/
  | rejectedConfiguration (exception : String)
  /-- Leadership transfers are rejected. -/
  | rejectedTransfer (exception : String)
  /-- Leadership transfers get no answer. -/
  | failedTransfer
  /-- The commit index of a group. -/
  | commitIndex (id : GroupId) (index : UInt64)

/-- Adjusts a setting of a cluster. -/
def adjust (c : Cluster) : Setting → Cluster
  | .group group leader? => c.addGroup group leader?
  | .unreachable id => c.setUnreachable id
  | .rejectedConfiguration exception => c.rejectConfiguration exception
  | .rejectedTransfer exception => c.rejectTransfer exception
  | .failedTransfer => c.failTransfer
  | .commitIndex id index => c.setCommitIndex id index

/-- The states that a cluster can reach, with the clients that are then open. -/
inductive Held : List Group → Cluster → Prop where
  /-- Nobody has connected yet. -/
  | empty : Held [] .empty
  /-- A setting is adjusted. -/
  | adjust {clients : List Group} {c : Cluster} (setting : Setting) :
      Held clients c → Held clients (c.adjust setting)
  /-- A client connects. -/
  | connect {clients : List Group} {c : Cluster} (group : Group) :
      Held clients c → Held (group :: clients) (connector.connect group c).state
  /-- One of the clients is dropped. -/
  | drop {newer older : List Group} {c : Cluster} (group : Group) :
      Held (newer ++ group :: older) c → Held (newer ++ older) (connector.disconnect group c)
  /-- One of the clients calls. -/
  | call {clients : List Group} {s : Session Cluster} (action : Action) :
      action.Uses clients → Held clients s.cluster →
        Held clients (Session.answer connector action s).2.cluster

variable {clients : List Group} {c : Cluster}

theorem openClients_configure (c : Cluster) (id : GroupId) (peers : List Peer) :
    (c.configure id peers).state.openClients = c.openClients := by
  unfold configure
  dsimp only
  split
  · rfl
  · split
    · rfl
    · split <;> rfl

theorem openClients_transfer (c : Cluster) (id : GroupId) (target : PeerId) (timeout : Nat) :
    (c.transfer id target timeout).state.openClients = c.openClients := by
  unfold transfer
  dsimp only
  split
  · rfl
  · split
    · rfl
    · split
      · rfl
      · split <;> rfl

/-- **The count of open connections is the number of clients that are open.** -/
theorem Held.openClients_eq (h : Held clients c) : c.openClients = clients.length := by
  induction h with
  | empty => rfl
  | adjust setting _ ih => cases setting <;> exact ih
  | connect group _ ih => exact congrArg (· + 1) ih
  | @drop newer older c group _ ih =>
    have hcount : c.openClients = newer.length + older.length + 1 := by
      rw [ih, List.length_append, List.length_cons]
      omega
    change c.openClients - 1 = _
    rw [hcount, List.length_append, Nat.add_sub_cancel]
  | call action huses _ ih =>
    cases action with
    | connect group => exact huses.elim
    | disconnect group => exact huses.elim
    | setConfiguration group peers => exact (openClients_configure _ _ _).trans ih
    | transferLeadership group target timeout => exact (openClients_transfer _ _ _ _).trans ih
    | _ => exact ih

/-- What a turn of a plan makes of its own connections, while the clients of others are open. -/
theorem Held.answer (failing : List Nat) {s : Session (Nat × Cluster)} {action : Action}
    {before after : List Group} (h : Held (before ++ clients) s.cluster.2)
    (htakes : Turn.Takes ⟨action, (Session.answer (.refusing failing connector) action s).1⟩
      before after) :
    Held (after ++ clients)
      (Session.answer (.refusing failing connector) action s).2.cluster.2 := by
  have hcall : action.Uses before →
      Held (before ++ clients)
        (Session.answer connector action ({ s with cluster := s.cluster.2 })).2.cluster :=
    fun huses => .call action (huses.mono (List.subset_append_left _ _)) h
  cases action with
  | connect group =>
    by_cases hrefused : s.cluster.1 ∈ failing
    · simp only [Session.answer, Session.absorb, Connector.refusing, hrefused, if_true] at htakes ⊢
      obtain rfl : after = before := htakes
      exact h
    · simp only [Session.answer, Session.absorb, Connector.refusing, hrefused, if_false] at htakes ⊢
      obtain rfl : after = group :: before := htakes
      exact h.connect group
  | disconnect group =>
    obtain rfl : before = group :: after := htakes
    have hfront : Held ([] ++ group :: (after ++ clients)) s.cluster.2 := h
    exact hfront.drop group
  | _ =>
    obtain ⟨huses, rfl⟩ := htakes
    exact hcall huses

end RaftAdmin.Cluster
