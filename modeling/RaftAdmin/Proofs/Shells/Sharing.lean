import Mathlib.Logic.Function.Basic
import RaftAdmin.Proofs.Resolution.Cluster
import RaftAdmin.Proofs.Script.Reply

/-!
# Shells that share a cluster

Several shells work on one cluster, each with a configuration, a stream and a log of its own. They
take turns in any order, one action at a time, and the cluster is all that they share.

## The model

A `Shared` has the cluster, and for each shell what is left of its plan. A schedule says whose turn
it is; a shell whose plan has come to its end passes. `run` keeps the conversation of all shells, in
which each turn is marked with the shell that took it.

## What is proved

* `step_cases` — all that one turn can do.
* **`path_of_code`** — what a shell has said until it ends is a conversation that its plan can have.
* **`served_run`** — the cluster serves the turns of all shells one after the other.
* `Served.alike` — questions are answered truthfully, whoever asks, and change no group.
-/

namespace RaftAdmin

open Script (Path)

/-! ### The turns of a cluster -/

namespace Cluster

variable {c c' : Cluster} {xs ys : List Turn}

/-- The cluster replies so to turns, each in whatever session, and is then in another state. -/
inductive Served : Cluster → List Turn → Cluster → Prop where
  /-- Nothing is asked. -/
  | nil (c : Cluster) : Served c [] c
  /-- An action is replied to, and then the rest. -/
  | cons (s : Session Cluster) (action : Action) {xs : List Turn} {c : Cluster} :
      Served (Session.answer connector action s).2.cluster xs c →
        Served s.cluster (⟨action, (Session.answer connector action s).1⟩ :: xs) c

theorem served_append_iff :
    Served c (xs ++ ys) c' ↔ ∃ between, Served c xs between ∧ Served between ys c' := by
  constructor
  · intro h
    induction xs generalizing c with
    | nil => exact ⟨c, .nil c, h⟩
    | cons x xs ih =>
      cases h with
      | cons s action h =>
        obtain ⟨between, hxs, hys⟩ := ih h
        exact ⟨between, .cons s action hxs, hys⟩
  · rintro ⟨between, hxs, hys⟩
    induction hxs with
    | nil c => exact hys
    | cons s action _ ih => exact .cons s action (ih hys)

theorem served_cons_iff {x : Turn} :
    Served c (x :: xs) c' ↔ ∃ s : Session Cluster, s.cluster = c ∧
      x.reply = (Session.answer connector x.action s).1 ∧
      Served (Session.answer connector x.action s).2.cluster xs c' := by
  constructor
  · rintro (_ | ⟨s, action, h⟩)
    exact ⟨s, rfl, rfl, h⟩
  · obtain ⟨action, reply⟩ := x
    rintro ⟨s, rfl, hreply, h⟩
    obtain rfl : reply = (Session.answer connector action s).1 := hreply
    exact .cons s action h

/-- Questions are answered truthfully, whoever asks, and change no group. -/
theorem Served.alike {first : Cluster} (h : Served c xs c') (hxs : ∀ x ∈ xs, x.action.Asks)
    (hc : first.Alike c) : (∀ x ∈ xs, first.Truthful x) ∧ first.Alike c' := by
  induction h with
  | nil c => exact ⟨by simp, hc⟩
  | cons s action _ ih =>
    obtain ⟨hasks, hrest⟩ := List.forall_mem_cons.mp hxs
    obtain ⟨htruthful, halike⟩ := truthful_answer action s hasks hc
    obtain ⟨hturns, hend⟩ := ih hrest halike
    exact ⟨List.forall_mem_cons.mpr ⟨htruthful, hturns⟩, hend⟩

end Cluster

/-! ### The turns of shells -/

/-- A shell at work. -/
structure Worker where
  /-- What is left of its plan. -/
  rest : Script Int
  /-- Its session, but for the cluster. -/
  session : Session Unit

/-- Shells that share a cluster. -/
structure Shared (ι : Type) where
  /-- The cluster. -/
  cluster : Cluster
  /-- The shells. -/
  worker : ι → Worker

/-- The same session over something else. -/
def Session.over {σ τ : Type} (s : Session σ) (cluster : τ) : Session τ :=
  { s with cluster := cluster }

namespace Shared

variable {ι : Type} [DecidableEq ι]

/-- A shell goes on with a plan after its session has changed. -/
def resume (w : Shared ι) (i : ι) (s : Session Cluster) (rest : Script Int) : Shared ι :=
  ⟨s.cluster, Function.update w.worker i ⟨rest, s.over ()⟩⟩

/-- A shell takes a turn, unless its plan has come to its end. -/
def step (i : ι) (w : Shared ι) : Option (Turn × Shared ι) :=
  match (w.worker i).rest with
  | .done _ => none
  | .perform action next =>
    let (reply, s) := Session.answer Cluster.connector action ((w.worker i).session.over w.cluster)
    some (⟨action, reply⟩, w.resume i s (next reply))

/-- The shells take turns by a schedule: what they say, and the state after it. -/
def run : List ι → Shared ι → List (ι × Turn) × Shared ι
  | [], w => ([], w)
  | i :: schedule, w =>
    match w.step i with
    | none => w.run schedule
    | some (x, w) =>
      let (zs, w) := w.run schedule
      ((i, x) :: zs, w)

/-- The exit code of a shell whose plan has come to its end. -/
def code? (w : Shared ι) (i : ι) : Option Int :=
  match (w.worker i).rest with
  | .done code => some code
  | .perform _ _ => none

/-- What one of the shells has said. -/
def said (i : ι) (zs : List (ι × Turn)) : List Turn :=
  zs.filterMap fun z => if z.1 = i then some z.2 else none

variable {w : Shared ι} {i j : ι} {zs zs' : List (ι × Turn)}

theorem said_append : said i (zs ++ zs') = said i zs ++ said i zs' := List.filterMap_append

theorem said_cons_self {x : Turn} : said i ((i, x) :: zs) = x :: said i zs := by simp [said]

theorem said_cons_of_ne (h : j ≠ i) {x : Turn} : said i ((j, x) :: zs) = said i zs := by
  simp [said, h]

theorem mem_said {x : Turn} : x ∈ said i zs ↔ (i, x) ∈ zs := by
  simp [said]

/-! ### One turn -/

theorem worker_resume_self (w : Shared ι) (i : ι) (s : Session Cluster) (rest : Script Int) :
    (w.resume i s rest).worker i = ⟨rest, s.over ()⟩ :=
  Function.update_self ..

theorem worker_resume_of_ne (h : j ≠ i) (w : Shared ι) (s : Session Cluster) (rest : Script Int) :
    (w.resume i s rest).worker j = w.worker j :=
  Function.update_of_ne h ..

/-- A shell passes, or the cluster replies to its next action. -/
theorem step_cases (w : Shared ι) (i : ι) :
    w.step i = none ∨
      ∃ action next, ∃ s : Session Cluster, (w.worker i).rest = .perform action next ∧
        s.cluster = w.cluster ∧
        w.step i = some (⟨action, (Session.answer Cluster.connector action s).1⟩,
          w.resume i (Session.answer Cluster.connector action s).2
            (next (Session.answer Cluster.connector action s).1)) := by
  unfold step
  cases hrest : (w.worker i).rest with
  | done code => exact .inl rfl
  | perform action next => exact .inr ⟨action, next, _, rfl, rfl, rfl⟩

/-! ### All turns -/

theorem run_cons_of_none (h : w.step i = none) (schedule : List ι) :
    w.run (i :: schedule) = w.run schedule := by
  rw [run, h]

theorem run_cons_of_some {x : Turn} {w' : Shared ι} (h : w.step i = some (x, w'))
    (schedule : List ι) :
    w.run (i :: schedule) = ((i, x) :: (w'.run schedule).1, (w'.run schedule).2) := by
  rw [run, h]

/-- What a shell says goes before what is left of its plan. -/
theorem path_run {schedule : List ι} {xs : List Turn} {code : Int}
    (h : Path ((w.run schedule).2.worker i).rest xs code) :
    Path (w.worker i).rest (said i (w.run schedule).1 ++ xs) code := by
  induction schedule generalizing w with
  | nil => exact h
  | cons j schedule ih =>
    rcases w.step_cases j with hpass | ⟨action, next, s, hrest, -, hstep⟩
    · rw [run_cons_of_none hpass] at h ⊢
      exact ih h
    · rw [run_cons_of_some hstep] at h ⊢
      have hpath := ih h
      by_cases hj : j = i
      · subst hj
        rw [worker_resume_self] at hpath
        rw [hrest, said_cons_self]
        exact .perform _ hpath
      · rw [worker_resume_of_ne (Ne.symm hj)] at hpath
        rwa [said_cons_of_ne hj]

/-- What a shell has said until it ends is a conversation that its plan can have. -/
theorem path_of_code {schedule : List ι} {code : Int}
    (h : (w.run schedule).2.code? i = some code) :
    Path (w.worker i).rest (said i (w.run schedule).1) code := by
  rw [← List.append_nil (said i _)]
  refine path_run ?_
  unfold code? at h
  split at h
  · next code' hrest =>
    obtain rfl := Option.some.inj h
    rw [hrest]
    exact .done _
  · cases h

/-- The cluster serves the turns of all shells one after the other. -/
theorem served_run (w : Shared ι) (schedule : List ι) :
    w.cluster.Served ((w.run schedule).1.map Prod.snd) (w.run schedule).2.cluster := by
  induction schedule generalizing w with
  | nil => exact .nil _
  | cons j schedule ih =>
    rcases w.step_cases j with hpass | ⟨action, next, s, -, hcluster, hstep⟩
    · rw [run_cons_of_none hpass]
      exact ih w
    · rw [run_cons_of_some hstep, ← hcluster]
      exact .cons s action (ih (w.resume j _ _))

end Shared

end RaftAdmin
