import RaftAdmin.Proofs.Script.Reply

/-!
# Streams that break

What an operator reads may end anywhere: a pipe is closed, a disk is full. This module compares a
plan that is run with a stream that never breaks to the same plan run with one that does.

## The model

An `Outlet` is a stream of bytes that takes every fragment as a whole, until it breaks. The fragment
on which it breaks it may take in part, and from then on it fails every write and takes nothing.
`Outlet.world` is a session with such a stream in place of its own.

## What is proved

* **`lockstep`** — both runs have the same conversation up to the first line that cannot be written,
  and what the breaking stream takes is a prefix of the whole output.
* `run_outlet` — the stream of a session is an outlet.
-/

namespace RaftAdmin

open Script (Replies)

/-- The bytes of a text. -/
def bytes (text : String) : List UInt8 := text.toUTF8.data.toList

@[simp] theorem bytes_empty : bytes "" = [] := rfl

@[simp] theorem bytes_append (a b : String) : bytes (a ++ b) = bytes a ++ bytes b := by
  simp [bytes]

/-- A stream of bytes that may break. -/
structure Outlet (τ : Type) where
  /-- Writes a fragment. -/
  put : String → τ → Except String Unit × τ
  /-- What the stream has taken. -/
  taken : τ → List UInt8
  /-- Whether the stream has broken. -/
  Broken : τ → Prop
  /-- A fragment that is written is taken as a whole. -/
  taken_of_ok (f : String) (u : τ) (h : (put f u).1 = .ok ()) :
    taken (put f u).2 = taken u ++ bytes f
  /-- A stream that fails has broken, and may have taken a part of the fragment. -/
  broken_of_error (f : String) (u : τ) (cause : String) (h : (put f u).1 = .error cause) :
    Broken (put f u).2 ∧ ∃ part, part <+: bytes f ∧ taken (put f u).2 = taken u ++ part
  /-- A broken stream fails every write, takes nothing, and stays broken. -/
  error_of_broken (f : String) (u : τ) (h : Broken u) :
    (∃ cause, (put f u).1 = .error cause) ∧ Broken (put f u).2 ∧ taken (put f u).2 = taken u

namespace Outlet

variable {τ σ α : Type}

/-- Writes fragments in order up to the first that fails; there is no writing of nothing. -/
def write (o : Outlet τ) : List String → τ → Except String Unit × τ
  | [], u => (.ok (), u)
  | f :: fs, u =>
    if f.isEmpty then o.write fs u
    else
      match o.put f u with
      | (.ok (), u) => o.write fs u
      | (.error cause, u) => (.error cause, u)

/-- A session with an outlet as the operator's stream. -/
def world (o : Outlet τ) (k : Connector σ) : Script.World (Session σ × τ) where
  answer
    | .print fragments, (s, u) =>
      let (result, u) := o.write fragments u
      (result, (s, u))
    | action, (s, u) =>
      let (reply, s) := Session.answer k action s
      (reply, (s, u))

variable {o : Outlet τ}

/-- Fragments are taken as a whole, or the stream breaks and takes a part of them. -/
theorem write_cases (fragments : List String) (u : τ) :
    ((o.write fragments u).1 = .ok () ∧
      o.taken (o.write fragments u).2 = o.taken u ++ bytes (String.join fragments)) ∨
    ∃ cause part, (o.write fragments u).1 = .error cause ∧ o.Broken (o.write fragments u).2 ∧
      part <+: bytes (String.join fragments) ∧
      o.taken (o.write fragments u).2 = o.taken u ++ part := by
  induction fragments generalizing u with
  | nil => exact .inl ⟨rfl, by simp [write]⟩
  | cons f fs ih =>
    rw [write, String.join_cons, bytes_append]
    cases hf : f.isEmpty with
    | true =>
      rw [String.isEmpty_iff] at hf
      simpa [hf] using ih u
    | false =>
      have hok := o.taken_of_ok f u
      have herror := o.broken_of_error f u
      generalize o.put f u = answer at hok herror ⊢
      obtain ⟨cause | ⟨⟨⟩⟩, u'⟩ := answer
      · obtain ⟨hbroken, part, hpart, htaken⟩ := herror cause rfl
        exact .inr ⟨cause, part, rfl, hbroken, hpart.trans (List.prefix_append _ _), htaken⟩
      · rcases ih u' with ⟨hres, htaken⟩ | ⟨cause, part, hres, hbroken, hpart, htaken⟩
        · refine .inl ⟨hres, htaken.trans ?_⟩
          rw [hok rfl, List.append_assoc]
        · refine .inr ⟨cause, bytes f ++ part, hres, hbroken, ?_, htaken.trans ?_⟩
          · exact (List.prefix_append_right_inj _).mpr hpart
          · rw [hok rfl, List.append_assoc]

/-- A broken stream takes nothing and stays broken. -/
theorem write_of_broken (fragments : List String) {u : τ} (hu : o.Broken u) :
    o.Broken (o.write fragments u).2 ∧ o.taken (o.write fragments u).2 = o.taken u := by
  induction fragments with
  | nil => exact ⟨hu, rfl⟩
  | cons f fs ih =>
    rw [write]
    split
    · exact ih
    · obtain ⟨⟨cause, hcause⟩, hbroken, htaken⟩ := o.error_of_broken f u hu
      generalize o.put f u = answer at hcause hbroken htaken ⊢
      obtain ⟨_ | ⟨⟨⟩⟩, u'⟩ := answer
      · exact ⟨hbroken, htaken⟩
      · cases hcause

/-! ### The two runs -/

variable {k : Connector σ} {s s' t : Session σ} {u : τ} {xs : List Turn}

/-- What is not written is answered by the cluster alone. -/
theorem answer_world {action : Action} (haction : ∀ fragments, action ≠ .print fragments)
    (hcluster : s'.cluster = s.cluster) :
    ∃ t', (o.world k).answer action (s', u) = ((Session.answer k action s).1, (t', u)) ∧
      t'.cluster = (Session.answer k action s).2.cluster ∧
      (Session.answer k action s).2.sink = s.sink := by
  have hanswer : (Session.answer k action s').1 = (Session.answer k action s).1 ∧
      (Session.answer k action s').2.cluster = (Session.answer k action s).2.cluster ∧
      (Session.answer k action s).2.sink = s.sink := by
    cases action with
    | print fragments => exact absurd rfl (haction fragments)
    | _ => simp [Session.answer, Session.absorb, hcluster]
  refine ⟨(Session.answer k action s').2, ?_, hanswer.2⟩
  rw [← hanswer.1]
  cases action with
  | print fragments => exact absurd rfl (haction fragments)
  | _ => rfl

/-- The rest of a run with a broken stream is not seen. -/
theorem broken_of_replies {su tv : Session σ × τ} (h : Replies (o.world k) su xs tv)
    (hbroken : o.Broken su.2) : o.Broken tv.2 ∧ o.taken tv.2 = o.taken su.2 := by
  refine (h.keeps (P := fun _ => True) (T := fun _ => True)
    (I := fun v => o.Broken v.2 ∧ o.taken v.2 = o.taken su.2) ?_ (fun _ _ => trivial)
    ⟨hbroken, rfl⟩).2
  rintro action ⟨s, v⟩ - ⟨hv, htaken⟩
  refine ⟨trivial, ?_⟩
  cases action with
  | print fragments =>
    obtain ⟨hw, htaken'⟩ := write_of_broken fragments hv
    exact ⟨hw, htaken'.trans htaken⟩
  | _ => exact ⟨hv, htaken⟩

/-- What is written stays written. -/
theorem written_of_replies (h : Replies (Session.world k) s xs t) (hs : s.sink.limit? = none) :
    ∃ text, t.sink.written = s.sink.written ++ text :=
  ⟨_, Session.written_eq_append h hs⟩

/-- How two conversations relate of which the second is cut short: they are the same, or the same up
to a line that is written in the first and cannot be written in the second. -/
inductive CutsTo : List Turn → List Turn → Prop where
  /-- Nothing is cut. -/
  | whole (xs : List Turn) : CutsTo xs xs
  /-- A line cannot be written. -/
  | cut (xs : List Turn) (fragments : List String) (cause : String) (ys zs : List Turn) :
      CutsTo (xs ++ ⟨.print fragments, .ok ()⟩ :: ys) (xs ++ ⟨.print fragments, .error cause⟩ :: zs)

theorem CutsTo.cons {ys zs : List Turn} (x : Turn) (h : CutsTo ys zs) :
    CutsTo (x :: ys) (x :: zs) := by
  cases h with
  | whole xs => exact .whole _
  | cut xs fragments cause ys zs => exact .cut (x :: xs) fragments cause ys zs

/-- **Two runs of a plan.** Run with a stream that never breaks and with an outlet, a plan has the
same conversation up to the first line that cannot be written, and what the outlet takes is a prefix
of what is written. -/
theorem lockstep (p : Script α) (hs : s.sink.limit? = none) (hcluster : s'.cluster = s.cluster)
    (u : τ) :
    CutsTo (p.turns (Session.world k) s) (p.turns (o.world k) (s', u)) ∧
      ∃ text part, (Session.run k p s).2.sink.written = s.sink.written ++ text ∧
        part <+: bytes text ∧ o.taken (p.run (o.world k) (s', u)).2.2 = o.taken u ++ part := by
  induction p generalizing s s' u with
  | done a =>
    exact ⟨.whole [], "", [], by simp [Session.run, Script.run], by simp, by simp [Script.run]⟩
  | perform action next ih =>
    rw [Session.run, Script.turns_perform, Script.turns_perform, Script.run_perform,
      Script.run_perform]
    by_cases hprint : ∃ fragments, action = .print fragments
    · obtain ⟨fragments, rfl⟩ := hprint
      have hwhole : (Session.world k).answer (.print fragments) s =
          (.ok (), { s with sink.written := s.sink.written ++ String.join fragments }) := by
        simp [Session.world, Session.answer, Sink.write_of_unlimited hs]
      have hcut : (o.world k).answer (.print fragments) (s', u) =
          ((o.write fragments u).1, (s', (o.write fragments u).2)) := rfl
      rw [hwhole, hcut]
      have hwrite := o.write_cases fragments u
      generalize o.write fragments u = answer at hwrite ⊢
      obtain ⟨reply, u'⟩ := answer
      rcases hwrite with ⟨rfl, htaken⟩ | ⟨cause, part, rfl, hbroken, hpart, htaken⟩
      · obtain ⟨hcuts, text, part, hwritten, hpart, htaken'⟩ := ih (.ok ())
          (s := { s with sink.written := s.sink.written ++ String.join fragments }) hs hcluster u'
        refine ⟨hcuts.cons _, String.join fragments ++ text, bytes (String.join fragments) ++ part,
          ?_, ?_, ?_⟩
        · rw [← String.append_assoc]
          exact hwritten
        · rw [bytes_append]
          exact (List.prefix_append_right_inj _).mpr hpart
        · rw [← List.append_assoc, ← htaken]
          exact htaken'
      · -- the rest of the cut run is not seen, and the rest of the whole one only adds to the text
        obtain ⟨text, hwritten⟩ := written_of_replies
          (Script.replies_run (Session.world k) (next (.ok ()))
            { s with sink.written := s.sink.written ++ String.join fragments }) hs
        have hrest := broken_of_replies
          (Script.replies_run (o.world k) (next (.error cause)) (s', u')) hbroken
        refine ⟨.cut [] fragments cause _ _, String.join fragments ++ text, part, ?_, ?_,
          hrest.2.trans htaken⟩
        · rw [← String.append_assoc]
          exact hwritten
        · rw [bytes_append]
          exact hpart.trans (List.prefix_append _ _)
    · obtain ⟨t', hanswer, hcluster', hsink⟩ := answer_world (o := o) (k := k) (u := u)
        (fun fragments h => hprint ⟨fragments, h⟩) hcluster
      rw [hanswer]
      obtain ⟨hcuts, text, part, hwritten, hpart, htaken⟩ :=
        ih (Session.answer k action s).1 (hsink.symm ▸ hs) hcluster' u
      exact ⟨hcuts.cons _, text, part, hsink ▸ hwritten, hpart, htaken⟩

end Outlet

/-! ### The stream of a session -/

/-- The stream of a session as an outlet. -/
def Sink.outlet : Outlet Sink where
  put f s :=
    if s.isBroken then (.error brokenMessage, s) else (.ok (), { s with written := s.written ++ f })
  taken s := bytes s.written
  Broken s := s.isBroken = true
  taken_of_ok f s h := by
    cases hbroken : s.isBroken with
    | true => simp [hbroken] at h
    | false => simp
  broken_of_error f s cause h := by
    cases hbroken : s.isBroken with
    | true => exact ⟨by simpa using hbroken, [], by simp⟩
    | false => simp [hbroken] at h
  error_of_broken f s h := by simp [h]

theorem Sink.outlet_write (fragments : List String) (s : Sink) :
    Sink.outlet.write fragments s = s.write fragments := by
  induction fragments generalizing s with
  | nil => rfl
  | cons f fs ih =>
    rw [Outlet.write, Sink.write, ih]
    cases hbroken : s.isBroken with
    | true => simp [outlet, hbroken]
    | false => simp [outlet, hbroken, ← ih]

/-- A session is a session with its own stream as the outlet. -/
theorem run_outlet {σ α : Type} {k : Connector σ} (p : Script α) {s s' : Session σ}
    (hcluster : s'.cluster = s.cluster) :
    p.turns (Sink.outlet.world k) (s', s.sink) = p.turns (Session.world k) s ∧
      (p.run (Sink.outlet.world k) (s', s.sink)).1 = (Session.run k p s).1 ∧
      (p.run (Sink.outlet.world k) (s', s.sink)).2.2 = (Session.run k p s).2.sink := by
  induction p generalizing s s' with
  | done a => exact ⟨rfl, rfl, rfl⟩
  | perform action next ih =>
    rw [Session.run, Script.turns_perform, Script.turns_perform, Script.run_perform,
      Script.run_perform]
    by_cases hprint : ∃ fragments, action = .print fragments
    · obtain ⟨fragments, rfl⟩ := hprint
      have hcut : (Sink.outlet.world k).answer (.print fragments) (s', s.sink) =
          ((s.sink.write fragments).1, (s', (s.sink.write fragments).2)) := by
        rw [← Sink.outlet_write]
        rfl
      rw [hcut]
      obtain ⟨hturns, hrest⟩ := ih (s.sink.write fragments).1
        (s := { s with sink := (s.sink.write fragments).2 }) hcluster
      exact ⟨congrArg _ hturns, hrest⟩
    · obtain ⟨t', hanswer, hcluster', hsink⟩ := Outlet.answer_world (o := Sink.outlet) (k := k)
        (u := s.sink) (fun fragments h => hprint ⟨fragments, h⟩) hcluster
      rw [hanswer]
      obtain ⟨hturns, hrest⟩ := ih (Session.answer k action s).1 hcluster'
      rw [hsink] at hturns hrest
      exact ⟨congrArg _ hturns, hrest⟩

end RaftAdmin
