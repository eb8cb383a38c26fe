import RaftAdmin.Config.Reference
import Mathlib.Data.List.Basic

/-!
# Finding a reference

What the search for the leftmost reference finds, and when it finds nothing.

## What is proved

* `eq_of_next?` — what is found is a reference without braces inside, at the place reported.
* `next?_eq_none_iff` — nothing is found only where there is no reference.
* `next?_append` — a reference is the leftmost one if no closing brace stands before it.
-/

namespace RaftAdmin.Reference

/-- The text has no braces. -/
def Plain (cs : List Char) : Prop := '\x7b' ∉ cs ∧ '\x7d' ∉ cs

instance (cs : List Char) : Decidable (Plain cs) := inferInstanceAs (Decidable (_ ∧ _))

/-- The reference with these characters between its braces. -/
def written (inner : List Char) : List Char := '$' :: '\x7b' :: (inner ++ ['\x7d'])

variable {text before inner after : List Char}

@[simp] theorem plain_nil : Plain [] := by simp [Plain]

@[simp] theorem plain_cons {c : Char} {cs : List Char} :
    Plain (c :: cs) ↔ (c ≠ '\x7b' ∧ c ≠ '\x7d') ∧ Plain cs := by
  simp only [Plain, List.mem_cons, not_or, ne_comm (a := c)]
  tauto

@[simp] theorem plain_append {cs ds : List Char} : Plain (cs ++ ds) ↔ Plain cs ∧ Plain ds := by
  simp only [Plain, List.mem_append, not_or]
  tauto

/-- The test of the search for a character between the braces. -/
private theorem plain_iff_forall {cs : List Char} :
    Plain cs ↔ ∀ c ∈ cs, decide (c ≠ '\x7b' ∧ c ≠ '\x7d') = true := by
  induction cs with
  | nil => simp
  | cons c cs ih => simp only [plain_cons, ih, List.forall_mem_cons, decide_eq_true_eq]

theorem opening?_written (h : Plain inner) (after : List Char) :
    opening? (written inner ++ after) = some (inner, after) := by
  have hc := plain_iff_forall.mp h
  simp only [written, opening?, List.cons_append, List.append_assoc, List.nil_append]
  rw [List.dropWhile_append_of_pos hc, List.takeWhile_append_of_pos hc]
  simp

theorem eq_of_opening? (h : opening? text = some (inner, after)) :
    text = written inner ++ after ∧ Plain inner := by
  unfold opening? at h
  split at h
  · rename_i cs
    split at h
    · rename_i rest hdrop
      obtain ⟨rfl, rfl⟩ : _ ∧ rest = after := by simpa using h
      refine ⟨?_, plain_iff_forall.mpr fun c hc => ?_⟩
      · conv_lhs => rw [← List.takeWhile_append_dropWhile (p := fun c =>
          decide (c ≠ '\x7b' ∧ c ≠ '\x7d')) (l := cs), hdrop]
        simp [written]
      · simpa using List.all_eq_true.mp List.all_takeWhile c hc
    · exact absurd h (by simp)
  · exact absurd h (by simp)

/-- What is found is a reference, and it stands where the search says. -/
theorem eq_of_next? (h : next? text = some (before, inner, after)) :
    text = before ++ (written inner ++ after) ∧ Plain inner := by
  induction text generalizing before with
  | nil => simp [next?] at h
  | cons c cs ih =>
    unfold next? at h
    split at h
    · rename_i i a hopen
      obtain ⟨rfl, rfl, rfl⟩ : [] = before ∧ i = inner ∧ a = after := by simpa using h
      exact eq_of_opening? hopen
    · obtain ⟨⟨b, i, a⟩, hnext, heq⟩ := Option.map_eq_some_iff.mp h
      obtain ⟨rfl, rfl, rfl⟩ : c :: b = before ∧ i = inner ∧ a = after := by simpa using heq
      obtain ⟨rfl, hplain⟩ := ih hnext
      exact ⟨rfl, hplain⟩

theorem next?_written (h : Plain inner) (after : List Char) :
    next? (written inner ++ after) = some ([], inner, after) := by
  have hopen := opening?_written h after
  simp only [written, List.cons_append] at hopen ⊢
  simp only [next?, hopen]

/-- A reference is found wherever one stands. -/
theorem next?_ne_none (h : Plain inner) (before after : List Char) :
    next? (before ++ (written inner ++ after)) ≠ none := by
  induction before with
  | nil =>
    rw [List.nil_append, next?_written h]
    simp
  | cons c cs ih =>
    simp only [List.cons_append, next?]
    split
    · simp
    · simpa using ih

/-- The search finds nothing if and only if there is no reference without braces inside. -/
theorem next?_eq_none_iff :
    next? text = none ↔
      ∀ before inner after, Plain inner → text ≠ before ++ (written inner ++ after) := by
  constructor
  · rintro h before inner after hplain rfl
    exact next?_ne_none hplain before after h
  · intro h
    by_contra hne
    obtain ⟨⟨b, i, a⟩, hnext⟩ := Option.ne_none_iff_exists'.mp hne
    obtain ⟨heq, hplain⟩ := eq_of_next? hnext
    exact h b i a hplain heq

/-- Without an opening brace there is no reference. -/
theorem next?_eq_none_of_open (h : '\x7b' ∉ text) : next? text = none :=
  next?_eq_none_iff.mpr fun b i a _ heq => h (heq ▸ by simp [written])

/-- The first closing brace divides a text in one way only. -/
theorem append_close_inj {cs ds rest rest' : List Char} (hc : '\x7d' ∉ cs) (hd : '\x7d' ∉ ds)
    (h : cs ++ '\x7d' :: rest = ds ++ '\x7d' :: rest') : cs = ds ∧ rest = rest' := by
  rcases List.append_eq_append_iff.mp h with ⟨es, rfl, he⟩ | ⟨es, rfl, he⟩
  · cases es with
    | nil => simpa using he
    | cons e es => simp_all
  · cases es with
    | nil => simpa [eq_comm] using he
    | cons e es => simp_all

/-- A reference is the leftmost one if no closing brace stands before it. -/
theorem next?_append (hb : '\x7d' ∉ before) (h : Plain inner) (after : List Char) :
    next? (before ++ (written inner ++ after)) = some (before, inner, after) := by
  induction before with
  | nil => exact next?_written h after
  | cons c cs ih =>
    rw [List.cons_append, next?]
    have hopen : opening? (c :: (cs ++ (written inner ++ after))) = none := by
      by_contra hne
      obtain ⟨⟨i, a⟩, hsome⟩ := Option.ne_none_iff_exists'.mp hne
      obtain ⟨heq, hi⟩ := eq_of_opening? hsome
      -- both references end at the first closing brace, but the text between them has a brace
      have hfirst : (c :: cs ++ '$' :: '\x7b' :: inner) ++ '\x7d' :: after =
          ('$' :: '\x7b' :: i) ++ '\x7d' :: a := by simpa [written] using heq
      have hsame := (append_close_inj (by simp_all [Plain]) (by simp [hi.2]) hfirst).1
      cases cs with
      | nil => simp at hsame
      | cons d ds =>
        obtain ⟨-, -, rfl⟩ : c = '$' ∧ d = '\x7b' ∧ ds ++ '$' :: '\x7b' :: inner = i := by
          simpa using hsame
        exact hi.1 (by simp)
    rw [hopen, ih (fun hmem => hb (List.mem_cons_of_mem _ hmem))]
    rfl

/-- Two references in one text are the same one, or one comes after the other. -/
theorem written_append_eq {inner' after' : List Char} (h : Plain inner) (h' : Plain inner')
    (heq : written inner ++ after = before ++ (written inner' ++ after')) :
    inner = inner' ∨ ∃ between, after = between ++ (written inner' ++ after') := by
  by_cases hb : '\x7d' ∈ before
  · right
    obtain ⟨front, between, rfl, hfront⟩ := List.eq_append_cons_of_mem hb
    have hclose : '$' :: '\x7b' :: inner ++ '\x7d' :: after =
        front ++ '\x7d' :: (between ++ (written inner' ++ after')) := by
      simpa [written] using heq
    exact ⟨between, (append_close_inj (by simp [h.2]) hfront hclose).2⟩
  · left
    have hnext := next?_append hb h' after'
    rw [← heq, next?_written h] at hnext
    simp only [Option.some.injEq, Prod.mk.injEq] at hnext
    exact hnext.2.1

end RaftAdmin.Reference
