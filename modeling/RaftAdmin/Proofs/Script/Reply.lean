import RaftAdmin.Proofs.Script.Path
import RaftAdmin.Script.Session

/-!
# The replies of a world

A world that replies to a plan passes through states, one after each turn. This module follows a
world through a conversation piece by piece: the state after a piece is the one in which it meets
the next.

## What is proved

* `replies_run`, `Path.run_eq` — a world replies so to the plan that it runs, and it runs a plan to
  which it replies so.
* `replies_append_iff` — the replies to one conversation after another.
* `Replies.keeps` — what every turn keeps, the whole conversation keeps.
* `Matches.run` — sessions that differ only in their configuration, log and clock reply alike.
* `written_of_unlimited` — a stream without a limit never breaks.
* `written_eq_append` — it has taken what was written in every turn, in order, and so has one that
  has not broken (`written_eq_join`).
-/

namespace RaftAdmin

namespace Script

variable {σ α : Type} {w : World σ} {xs ys : List Turn} {s t : σ}

/-- The world replies so when it starts in the first state, and is then in the second. -/
inductive Replies (w : World σ) : σ → List Turn → σ → Prop where
  /-- Nothing is asked. -/
  | nil (s : σ) : Replies w s [] s
  /-- An action is replied to, and then the rest. -/
  | cons {s t : σ} (action : Action) {xs : List Turn} :
      Replies w (w.answer action s).2 xs t →
        Replies w s (⟨action, (w.answer action s).1⟩ :: xs) t

theorem replies_run (w : World σ) (p : Script α) (s : σ) :
    Replies w s (p.turns w s) (p.run w s).2 := by
  induction p generalizing s with
  | done a => exact .nil s
  | perform action next ih => exact .cons action (ih _ _)

theorem replies_cons_iff {x : Turn} :
    Replies w s (x :: xs) t ↔
      x.reply = (w.answer x.action s).1 ∧ Replies w (w.answer x.action s).2 xs t := by
  constructor
  · rintro (_ | ⟨action, hxs⟩)
    exact ⟨rfl, hxs⟩
  · obtain ⟨action, reply⟩ := x
    dsimp only
    rintro ⟨rfl, hxs⟩
    exact .cons action hxs

/-- A plan to which the world replies so runs so. -/
theorem Path.run_eq {p : Script α} {a : α} (h : Path p xs a) (hxs : Replies w s xs t) :
    p.turns w s = xs ∧ p.run w s = (a, t) := by
  induction h generalizing s with
  | done a =>
    cases hxs
    exact ⟨rfl, rfl⟩
  | perform reply _ ih =>
    obtain ⟨hreply, hrest⟩ := replies_cons_iff.mp hxs
    dsimp only at hreply hrest
    subst hreply
    obtain ⟨hturns, hrun⟩ := ih hrest
    exact ⟨congrArg (_ :: ·) hturns, hrun⟩

theorem replies_append_iff :
    Replies w s (xs ++ ys) t ↔ ∃ u, Replies w s xs u ∧ Replies w u ys t := by
  constructor
  · intro h
    induction xs generalizing s with
    | nil => exact ⟨s, .nil s, h⟩
    | cons x xs ih =>
      obtain ⟨hreply, hrest⟩ := replies_cons_iff.mp h
      obtain ⟨u, hxs, hys⟩ := ih hrest
      exact ⟨u, replies_cons_iff.mpr ⟨hreply, hxs⟩, hys⟩
  · rintro ⟨u, hxs, hys⟩
    induction hxs with
    | nil s => exact hys
    | cons action _ ih => exact .cons action (ih hys)

/-- What every such turn keeps, the whole conversation keeps, and what it makes sure of the reply to
one holds of all. -/
theorem Replies.keeps {I : σ → Prop} {P : Action → Prop} {T : Turn → Prop}
    (hanswer : ∀ action s, P action → I s →
      T ⟨action, (w.answer action s).1⟩ ∧ I (w.answer action s).2)
    (h : Replies w s xs t) (hxs : ∀ x ∈ xs, P x.action) (hs : I s) : (∀ x ∈ xs, T x) ∧ I t := by
  induction h with
  | nil s => exact ⟨by simp, hs⟩
  | cons action _ ih =>
    obtain ⟨haction, hrest⟩ := List.forall_mem_cons.mp hxs
    obtain ⟨hturn, hs⟩ := hanswer action _ haction hs
    obtain ⟨hturns, ht⟩ := ih hrest hs
    exact ⟨List.forall_mem_cons.mpr ⟨hturn, hturns⟩, ht⟩

end Script

/-! ### Sessions that match -/

namespace Session

variable {σ : Type} {k : Connector σ} {s t : Session σ}

/-- The same cluster and the same stream. -/
structure Matches (s t : Session σ) : Prop where
  /-- The cluster. -/
  cluster : s.cluster = t.cluster
  /-- The operator's stream. -/
  sink : s.sink = t.sink

theorem Matches.symm (h : s.Matches t) : t.Matches s := ⟨h.cluster.symm, h.sink.symm⟩

theorem Matches.trans {u : Session σ} (h : s.Matches t) (h' : t.Matches u) : s.Matches u :=
  ⟨h.cluster.trans h'.cluster, h.sink.trans h'.sink⟩

/-- Sessions that match reply alike, and match afterwards. -/
theorem Matches.answer (h : s.Matches t) (action : Action) :
    ((world k).answer action s).1 = ((world k).answer action t).1 ∧
      ((world k).answer action s).2.Matches ((world k).answer action t).2 := by
  obtain ⟨cluster, conf, sink, events, slept⟩ := s
  obtain ⟨cluster', conf', sink', events', slept'⟩ := t
  obtain ⟨hcluster, hsink⟩ := h
  dsimp only at hcluster hsink
  subst hcluster hsink
  cases action <;> exact ⟨rfl, rfl, rfl⟩

/-- A plan goes alike in sessions that match. -/
theorem Matches.run {α : Type} (h : s.Matches t) (p : Script α) :
    p.turns (world k) s = p.turns (world k) t ∧
      (p.run (world k) s).1 = (p.run (world k) t).1 ∧
      (p.run (world k) s).2.Matches (p.run (world k) t).2 := by
  induction p generalizing s t with
  | done a => exact ⟨rfl, rfl, h⟩
  | perform action next ih =>
    obtain ⟨hreply, hmatches⟩ := h.answer (k := k) action
    rw [Script.turns_perform, Script.turns_perform, Script.run_perform, Script.run_perform, hreply]
    obtain ⟨hturns, hrest⟩ := ih _ hmatches
    exact ⟨congrArg (_ :: ·) hturns, hrest⟩

end Session

/-! ### The operator's stream -/

/-- A turn in which the operator's stream fails. -/
def Turn.Unwritten : Turn → Prop
  | ⟨.print _, .error _⟩ => True
  | _ => False

/-- What a turn adds to the operator's stream. -/
def Turn.text : Turn → String
  | ⟨.print fragments, .ok ()⟩ => String.join fragments
  | _ => ""

/-- A stream without a limit takes everything. -/
theorem Sink.write_of_unlimited {sink : Sink} (h : sink.limit? = none) (fragments : List String) :
    sink.write fragments =
      (.ok (), { sink with written := sink.written ++ String.join fragments }) := by
  induction fragments generalizing sink with
  | nil => simp [write]
  | cons f fs ih =>
    rw [write]
    cases hf : f.isEmpty with
    | true =>
      rw [String.isEmpty_iff] at hf
      simp [hf, ih h]
    | false =>
      have hwhole : sink.isBroken = false := by simp [isBroken, h]
      simp [hwhole, ih, h, String.append_assoc]

/-- What a stream takes as a whole stands behind what it has taken before. -/
theorem Sink.written_of_write {sink : Sink} {fragments : List String}
    (h : (sink.write fragments).1 = .ok ()) :
    (sink.write fragments).2.written = sink.written ++ String.join fragments := by
  induction fragments generalizing sink with
  | nil => exact String.append_empty.symm
  | cons f fs ih =>
    rw [write] at h ⊢
    split at h
    · next hempty =>
      rw [if_pos hempty, ih h, String.join_cons, String.isEmpty_iff.mp hempty, String.empty_append]
    · next hsome =>
      rw [if_neg hsome]
      split at h
      · cases h
      · next hwhole => rw [if_neg hwhole, ih h, String.join_cons, String.append_assoc]

namespace Session

variable {σ : Type} {k : Connector σ} {s t : Session σ} {xs : List Turn}

theorem written_answer (action : Action) {s : Session σ} (hs : s.sink.limit? = none) :
    ¬ Turn.Unwritten ⟨action, (answer k action s).1⟩ ∧
      (answer k action s).2.sink.limit? = none := by
  cases action with
  | print fragments =>
    simp only [answer, Sink.write_of_unlimited hs]
    exact ⟨not_false, hs⟩
  | connect group => exact ⟨not_false, hs⟩
  | disconnect group => exact ⟨not_false, hs⟩
  | listGroups group peer => exact ⟨not_false, hs⟩
  | groupInfo group peer id => exact ⟨not_false, hs⟩
  | setConfiguration group peers => exact ⟨not_false, hs⟩
  | transferLeadership group target timeout => exact ⟨not_false, hs⟩
  | sleep ms => exact ⟨not_false, hs⟩
  | log event => exact ⟨not_false, hs⟩
  | learn registry => exact ⟨not_false, hs⟩

/-- A stream without a limit never breaks. -/
theorem written_of_unlimited (h : Script.Replies (world k) s xs t) (hs : s.sink.limit? = none) :
    ∀ x ∈ xs, ¬ x.Unwritten := by
  induction h with
  | nil s => simp
  | cons action _ ih =>
    obtain ⟨hturn, hrest⟩ := written_answer action hs
    exact List.forall_mem_cons.mpr ⟨hturn, ih hrest⟩

theorem text_answer (action : Action) (s : Session σ)
    (h : ¬ Turn.Unwritten ⟨action, (answer k action s).1⟩) :
    (answer k action s).2.sink.written
      = s.sink.written ++ Turn.text ⟨action, (answer k action s).1⟩ := by
  cases action with
  | print fragments =>
    have hreply : (answer k (.print fragments) s).1 = (s.sink.write fragments).1 := rfl
    cases hwrite : (s.sink.write fragments).1 with
    | error cause =>
      rw [hreply, hwrite] at h
      exact absurd trivial h
    | ok =>
      rw [hreply, hwrite]
      exact Sink.written_of_write hwrite
  | _ => exact String.append_empty.symm

/-- A stream that has not broken has taken what was written in every turn, in order. -/
theorem written_eq_join (h : Script.Replies (world k) s xs t) (hxs : ∀ x ∈ xs, ¬ x.Unwritten) :
    t.sink.written = s.sink.written ++ String.join (xs.map Turn.text) := by
  induction h with
  | nil s => simp
  | cons action _ ih =>
    obtain ⟨hturn, hrest⟩ := List.forall_mem_cons.mp hxs
    rw [ih hrest, List.map_cons, String.join_cons, ← String.append_assoc]
    exact congrArg (· ++ _) (text_answer action _ hturn)

/-- A stream without a limit has taken what was written in every turn, in order. -/
theorem written_eq_append (h : Script.Replies (world k) s xs t) (hs : s.sink.limit? = none) :
    t.sink.written = s.sink.written ++ String.join (xs.map Turn.text) :=
  written_eq_join h (written_of_unlimited h hs)

end Session

end RaftAdmin
