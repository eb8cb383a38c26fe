import Mathlib.Data.List.Basic
import RaftAdmin.Retry

/-!
# Who is asked, and what is logged of it

The candidates are asked by an operation that may do anything with each call, and so answer
differently every time. Whatever it does, the calls follow the list of the candidates up to the
first value, and the log has one event for each call that did not yield one.

## The model

An operation has a state of its own, which every call may change. The candidates are asked on
record: the record has the state and, in one list, the calls with their answers and the events that
are reported, in the order in which they happen (`Step`). The operation sees nothing of the record.

## What is proved

* `dispatch_of_value`, `dispatch_of_notice` — one candidate ends the asking with its value, or is
  put on record with an event before the others are asked.
* `dispatched_of_value`, `Dispatched.cons` — the same for what is said of the calls and the log.
* **`dispatch_dispatches`** — who is called, in which order and how often, what is found, and what
  is logged, for every operation and all candidates.
-/

namespace RaftAdmin.Retry

/-- What a candidate answers: a value, nothing, or a failure. -/
abbrev Answer (β : Type) := Except RpcFailure (Option β)

/-- The value in an answer. -/
def Answer.value? {β : Type} : Answer β → Option β
  | .ok found => found
  | .error _ => none

/-- An operation that candidates are asked by, with a state of its own. -/
abbrev Operation (α β σ : Type) := α → StateM σ (Answer β)

/-! ### Records -/

/-- What happens while candidates are asked. -/
inductive Step (α β : Type) where
  /-- The operation is called for a candidate, and gives this answer. -/
  | called (c : α) (answer : Answer β)
  /-- An event is reported. -/
  | logged (event : LogEvent)

namespace Step

variable {α β : Type}

/-- The candidate that is called, with its answer. -/
def call? : Step α β → Option (α × Answer β)
  | .called c answer => some (c, answer)
  | .logged _ => none

/-- The event that is reported. -/
def event? : Step α β → Option LogEvent
  | .called _ _ => none
  | .logged event => some event

end Step

/-- The state of an operation, and what has happened so far. -/
structure Record (α β σ : Type) where
  /-- The state of the operation. -/
  state : σ
  /-- What has happened, in order. -/
  steps : List (Step α β)

variable {α β σ : Type}

/-- The calls with their answers. -/
def Record.calls (r : Record α β σ) : List (α × Answer β) := r.steps.filterMap Step.call?

/-- The log. -/
def Record.events (r : Record α β σ) : List LogEvent := r.steps.filterMap Step.event?

/-- The record if these things happened before. -/
def Record.after (r : Record α β σ) (before : List (Step α β)) : Record α β σ :=
  ⟨r.state, before ++ r.steps⟩

/-- Calls the operation for a candidate and puts the call on record. -/
def recordCall (op : Operation α β σ) (c : α) : StateM (Record α β σ) (Answer β) := fun r =>
  let (answer, state) := (op c).run r.state
  (answer, ⟨state, r.steps ++ [.called c answer]⟩)

/-- Puts an event on record. -/
def recordEvent (event : LogEvent) : StateM (Record α β σ) Unit := fun r =>
  ((), ⟨r.state, r.steps ++ [.logged event]⟩)

/-- Asks the candidates on record, counting them from `index`. -/
def dispatch (op : Operation α β σ) (name : α → String) (index : Nat) (cs : List α) :
    StateM (Record α β σ) (Option β) :=
  firstAnswer recordEvent name (recordCall op) index cs

/-- The event that the answer of a candidate with its index gives rise to: none if it is a value, a
debug event if it is nothing, and a warning if it is a failure. -/
def notice? (name : α → String) : (α × Answer β) × Nat → Option LogEvent
  | ((_, .ok (some _)), _) => none
  | ((c, .ok none), index) => some (silent index (name c))
  | ((c, .error failure), index) => some (failed index (name c) failure)

/-- What happens when a candidate is asked: the call, and the event that its answer gives rise to. -/
def stepsOf (name : α → String) (x : (α × Answer β) × Nat) : List (Step α β) :=
  .called x.1.1 x.1.2 :: ((notice? name x).map .logged).toList

variable {op : Operation α β σ} {name : α → String} {index : Nat} {c : α} {cs : List α} {s s' : σ}
  {before : List (Step α β)} {answer : Answer β} {found : Option β} {r : Record α β σ}

theorem calls_after (r : Record α β σ) (x : (α × Answer β) × Nat) :
    (r.after (stepsOf name x)).calls = x.1 :: r.calls := by
  cases hnotice : notice? name x <;>
    simp [Record.calls, Record.after, stepsOf, hnotice, Step.call?, List.filterMap_cons]

theorem events_after (r : Record α β σ) (x : (α × Answer β) × Nat) :
    (r.after (stepsOf name x)).events = (notice? name x).toList ++ r.events := by
  cases hnotice : notice? name x <;>
    simp [Record.events, Record.after, stepsOf, hnotice, Step.event?, List.filterMap_cons]

/-! ### One candidate -/

/-- An answer has a value, or it gives rise to an event. -/
theorem value_or_notice (name : α → String) (index : Nat) (c : α) (answer : Answer β) :
    (∃ b, answer = .ok (some b)) ∨
      answer.value? = none ∧ ∃ event, notice? name ((c, answer), index) = some event :=
  match answer with
  | .ok (some b) => .inl ⟨b, rfl⟩
  | .ok none => .inr ⟨rfl, _, rfl⟩
  | .error _ => .inr ⟨rfl, _, rfl⟩

theorem run_recordCall (h : (op c).run s = (answer, s')) :
    (recordCall op c).run ⟨s, before⟩ = (answer, ⟨s', before ++ [.called c answer]⟩) := by
  have hrun : (recordCall op c).run ⟨s, before⟩ = (((op c).run s).1,
      ⟨((op c).run s).2, before ++ [.called c ((op c).run s).1]⟩) := rfl
  rw [hrun, h]

/-- A value ends the asking. -/
theorem dispatch_of_value {b : β} (h : (op c).run s = (.ok (some b), s')) :
    (dispatch op name index (c :: cs)).run ⟨s, before⟩
      = (some b, ⟨s', before ++ stepsOf name ((c, .ok (some b)), index)⟩) := by
  rw [dispatch, firstAnswer, StateT.run_bind, run_recordCall h]
  rfl

/-- Without a value, the event is put on record and the others are asked. -/
theorem dispatch_of_notice {event : LogEvent} (h : (op c).run s = (answer, s'))
    (hnotice : notice? name ((c, answer), index) = some event) :
    (dispatch op name index (c :: cs)).run ⟨s, before⟩
      = (dispatch op name (index + 1) cs).run
          ⟨s', before ++ stepsOf name ((c, answer), index)⟩ := by
  have hsteps : stepsOf name ((c, answer), index) = [.called c answer] ++ [.logged event] := by
    rw [stepsOf, hnotice]
    rfl
  rw [dispatch, firstAnswer, StateT.run_bind, run_recordCall h, hsteps, ← List.append_assoc]
  match answer, hnotice with
  | .ok none, hnotice =>
    obtain rfl := Option.some.inj hnotice
    rfl
  | .error failure, hnotice =>
    obtain rfl := Option.some.inj hnotice
    rfl

/-! ### All candidates -/

/-- What is on record when candidates, counted from `index`, were asked until one call yielded a
value. -/
structure Dispatched (op : Operation α β σ) (name : α → String) (index : Nat) (cs : List α) (s : σ)
    (found : Option β) (r : Record α β σ) : Prop where
  /-- The operation was called for the first candidates, in order, once for each of them, -/
  asked : r.calls.map Prod.fst <+: cs
  /-- and each call gave its answer in the state that the one before had left. -/
  answered : ((r.calls.map Prod.fst).mapM op).run s = (r.calls.map Prod.snd, r.state)
  /-- There was no call after one that yielded a value; -/
  passed : ∀ x ∈ r.calls.dropLast, x.2.value? = none
  /-- what was found is this value, -/
  first : found = r.calls.findSome? fun x => x.2.value?
  /-- and if no call yielded one, the operation was called for all. -/
  exhausted : found = none → r.calls.map Prod.fst = cs
  /-- The log has, in order, the events that the answers give rise to, -/
  logged : r.events = (r.calls.zipIdx index).filterMap (notice? name)
  /-- each of which was reported just after the call. -/
  interleaved : r.steps = (r.calls.zipIdx index).flatMap (stepsOf name)

theorem dispatched_nil : Dispatched op name index [] s none ⟨s, []⟩ :=
  ⟨List.prefix_refl _, rfl, nofun, rfl, fun _ => rfl, rfl, rfl⟩

/-- The answer of the first of those that are asked comes before the answers of the others. -/
theorem run_mapM_cons {t : σ} {answers : List (Answer β)} (h : (op c).run s = (answer, s'))
    (hrest : (cs.mapM op).run s' = (answers, t)) :
    ((c :: cs).mapM op).run s = (answer :: answers, t) := by
  rw [List.mapM_cons, StateT.run_bind, h]
  show (do
    let x ← (cs.mapM op).run s'
    pure (answer :: x.1, x.2) : Id _) = _
  rw [hrest]
  rfl

/-- A call that yields a value is the last one. -/
theorem dispatched_of_value {b : β} (h : (op c).run s = (.ok (some b), s')) :
    Dispatched op name index (c :: cs) s (some b)
      ⟨s', stepsOf name ((c, .ok (some b)), index)⟩ where
  asked := ⟨cs, rfl⟩
  answered := run_mapM_cons h rfl
  passed := nofun
  first := rfl
  exhausted hfound := by cases hfound
  logged := rfl
  interleaved := rfl

theorem forall_mem_dropLast_cons {γ : Type} {P : γ → Prop} {y : γ} {ys : List γ} (hy : P y)
    (hys : ∀ x ∈ ys.dropLast, P x) : ∀ x ∈ (y :: ys).dropLast, P x := by
  cases ys with
  | nil => nofun
  | cons z ys =>
    rw [List.dropLast_cons_cons]
    exact List.forall_mem_cons.mpr ⟨hy, hys⟩

/-- A call that does not yield a value is passed over. -/
theorem Dispatched.cons (hrest : Dispatched op name (index + 1) cs s' found r)
    (h : (op c).run s = (answer, s')) (hvalue : answer.value? = none) :
    Dispatched op name index (c :: cs) s found (r.after (stepsOf name ((c, answer), index))) where
  asked := by
    rw [calls_after]
    exact List.cons_prefix_cons.mpr ⟨rfl, hrest.asked⟩
  answered := by
    rw [calls_after]
    exact run_mapM_cons h hrest.answered
  passed := by
    rw [calls_after]
    exact forall_mem_dropLast_cons hvalue hrest.passed
  first := by
    rw [calls_after, List.findSome?_cons, hvalue]
    exact hrest.first
  exhausted hfound := by rw [calls_after, List.map_cons, hrest.exhausted hfound]
  logged := by
    rw [calls_after, events_after, List.zipIdx_cons, List.filterMap_cons, hrest.logged]
    cases notice? name ((c, answer), index) <;> rfl
  interleaved := by
    rw [calls_after, List.zipIdx_cons, List.flatMap_cons, ← hrest.interleaved]
    rfl

/-- Asking candidates puts on record what is due, after what was there before. -/
theorem exists_dispatched (op : Operation α β σ) (name : α → String) (index : Nat) (cs : List α)
    (s : σ) (before : List (Step α β)) :
    ∃ found r, Dispatched op name index cs s found r ∧
      (dispatch op name index cs).run ⟨s, before⟩ = (found, r.after before) := by
  induction cs generalizing index s before with
  | nil =>
    refine ⟨none, ⟨s, []⟩, dispatched_nil, ?_⟩
    rw [Record.after, List.append_nil]
    rfl
  | cons c cs ih =>
    obtain ⟨answer, s', hcall⟩ : ∃ answer s', (op c).run s = (answer, s') := ⟨_, _, rfl⟩
    rcases value_or_notice name index c answer with ⟨b, rfl⟩ | ⟨hvalue, event, hnotice⟩
    · exact ⟨some b, _, dispatched_of_value hcall, dispatch_of_value hcall⟩
    · -- the others are asked with the next index, in the state and on the record that are left
      obtain ⟨found, r, hrest, hrun⟩ :=
        ih (index + 1) s' (before ++ stepsOf name ((c, answer), index))
      refine ⟨found, _, hrest.cons hcall hvalue, ?_⟩
      rw [dispatch_of_notice hcall hnotice, hrun, Record.after, List.append_assoc]
      rfl

/-- An operation that fails, then says nothing, and then has a value, whoever is asked. -/
example :
    let op : Operation String Nat Nat := fun _ calls =>
      (match calls with
        | 0 => .error (.plain "down")
        | 1 => .ok none
        | _ => .ok (some calls), calls + 1)
    let (found, r) := (dispatch op id 0 ["a", "b", "a", "c"]).run ⟨0, []⟩
    found = some 2 ∧ r.state = 3 ∧ r.steps =
      [.called "a" (.error (.plain "down")), .logged (failed 0 "a" (.plain "down")),
        .called "b" (.ok none), .logged (silent 1 "b"), .called "a" (.ok (some 2))] :=
  ⟨rfl, rfl, rfl⟩

end RaftAdmin.Retry
