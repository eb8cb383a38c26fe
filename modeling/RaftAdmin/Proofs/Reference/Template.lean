import RaftAdmin.Proofs.Reference.Search
import Mathlib.Tactic.Tauto

/-!
# Templates

A text is well nested if each opening brace directly follows its own `$` and each closing brace
closes one such pair. Such a text is the written form of a template: characters and references,
where what stands between the braces of a reference is a template again.

## The model

`parse?` takes a text apart from its end. The pieces after a closing brace wait on a stack until the
opening brace is met; then those read since are what stands between the braces.

## What is proved

* `parse?_eq_some_iff` — a text is taken apart into the one template that it is the written form of.
-/

namespace RaftAdmin.Reference

/-- A text with the references in it. -/
inductive Template where
  /-- The empty text. -/
  | nil
  /-- A character other than a brace. -/
  | char (c : Char) (hc : c ≠ '\x7b' ∧ c ≠ '\x7d') (rest : Template)
  /-- A reference: what stands between its braces, and what follows it. -/
  | ref (inner rest : Template)

namespace Template

/-- The written form. -/
def render : Template → List Char
  | nil => []
  | char c _ rest => c :: rest.render
  | ref inner rest => written inner.render ++ rest.render

/-- One template after the other. -/
def append : Template → Template → Template
  | nil, u => u
  | char c hc rest, u => char c hc (rest.append u)
  | ref inner rest, u => ref inner (rest.append u)

@[simp] theorem append_nil (t : Template) : t.append nil = t := by
  induction t with
  | nil => rfl
  | char c hc rest ih => rw [append, ih]
  | ref inner rest _ ih => rw [append, ih]

/-- The template at the start of a text, up to a closing brace that nothing opened, and the
templates after each such brace. -/
def scan : List Char → Option (Template × List Template)
  | [] => some (nil, [])
  | '$' :: '\x7b' :: cs =>
    match scan cs with
    | some (inner, rest :: outer) => some (ref inner rest, outer)
    | _ => none
  | '\x7d' :: cs => (scan cs).map fun (t, outer) => (nil, t :: outer)
  | c :: cs =>
    if hc : c ≠ '\x7b' ∧ c ≠ '\x7d' then (scan cs).map fun (t, outer) => (char c hc t, outer)
    else none

/-- The template of a well-nested text. -/
def parse? (cs : List Char) : Option Template :=
  match scan cs with
  | some (t, []) => some t
  | _ => none

/-- The written form of what `scan` found after closing braces. -/
def renderOuter (outer : List Template) : List Char := outer.flatMap fun t => '\x7d' :: t.render

variable {cs : List Char} {t u : Template} {outer : List Template}

theorem eq_of_scan (h : scan cs = some (t, outer)) : cs = t.render ++ renderOuter outer := by
  fun_induction scan cs generalizing t outer with
  | case1 =>
    obtain ⟨rfl, rfl⟩ : nil = t ∧ [] = outer := by simpa using h
    rfl
  | case2 cs inner rest outer' hscan ih =>
    obtain ⟨rfl, rfl⟩ : ref inner rest = t ∧ outer' = outer := by simpa using h
    rw [ih hscan]
    simp [render, written, renderOuter]
  | case3 => exact absurd h (by simp)
  | case4 cs ih =>
    obtain ⟨⟨u, outer'⟩, hscan, heq⟩ := Option.map_eq_some_iff.mp h
    obtain ⟨rfl, rfl⟩ : nil = t ∧ u :: outer' = outer := by simpa using heq
    rw [ih hscan]
    simp [render, renderOuter]
  | case5 c cs _ _ hc ih =>
    obtain ⟨⟨u, outer'⟩, hscan, heq⟩ := Option.map_eq_some_iff.mp h
    obtain ⟨rfl, rfl⟩ : char c hc u = t ∧ outer' = outer := by simpa using heq
    rw [ih hscan]
    simp [render]
  | case6 => exact absurd h (by simp)

theorem scan_open (cs : List Char) : scan ('\x7b' :: cs) = none := by
  simp [scan]

theorem scan_char {c : Char} (hc : c ≠ '\x7b' ∧ c ≠ '\x7d') (h : scan cs = some (t, outer)) :
    scan (c :: cs) = some (char c hc t, outer) := by
  rw [scan.eq_def]
  split
  · rename_i heq
    exact absurd heq (by simp)
  · rename_i heq
    obtain ⟨rfl, rfl⟩ := by simpa using heq
    exact absurd h (by simp [scan_open])
  · rename_i heq
    exact absurd (List.cons.inj heq).1 hc.2
  · rename_i heq
    obtain ⟨rfl, rfl⟩ := by simpa using heq
    rw [dif_pos hc, h]
    rfl

/-- The written form of a template in front of a text. -/
theorem scan_render_append (t : Template) (h : scan cs = some (u, outer)) :
    scan (t.render ++ cs) = some (t.append u, outer) := by
  induction t generalizing cs u outer with
  | nil => exact h
  | char c hc rest ih => exact scan_char hc (ih h)
  | ref inner rest ihInner ihRest =>
    have hrest := ihRest h
    have hclose : scan ('\x7d' :: (rest.render ++ cs)) = some (nil, rest.append u :: outer) := by
      simp [scan, hrest]
    have hinner := ihInner hclose
    simp [render, written, scan, hinner, append]

/-- A text is taken apart into a template exactly if it is its written form. -/
theorem parse?_eq_some_iff : parse? cs = some t ↔ t.render = cs := by
  constructor
  · intro h
    unfold parse? at h
    split at h
    · rename_i u hscan
      obtain rfl := Option.some.inj h
      simpa [renderOuter] using (eq_of_scan hscan).symm
    · exact absurd h (by simp)
  · rintro rfl
    have hscan : scan (t.render ++ []) = some (t.append nil, []) := scan_render_append t rfl
    rw [List.append_nil, append_nil] at hscan
    rw [parse?, hscan]

/-- A text is the written form of one template only. -/
theorem render_injective (h : t.render = u.render) : t = u := by
  have ht := parse?_eq_some_iff.mpr h
  rw [parse?_eq_some_iff.mpr rfl] at ht
  exact (Option.some.inj ht).symm

/-- A text without braces as a template. -/
def ofPlain : (cs : List Char) → Plain cs → Template
  | [], _ => nil
  | c :: cs, h => char c (plain_cons.mp h).1 (ofPlain cs (plain_cons.mp h).2)

@[simp] theorem render_ofPlain {cs : List Char} (h : Plain cs) : (ofPlain cs h).render = cs := by
  induction cs with
  | nil => rfl
  | cons c cs ih => rw [ofPlain, render, ih]

end Template

/-- The braces of the text belong to references: each opening brace directly follows its own `$`,
and each closing brace closes one such pair. -/
def WellNested (cs : List Char) : Prop := ∃ t : Template, t.render = cs

theorem wellNested_iff {cs : List Char} : WellNested cs ↔ (Template.parse? cs).isSome = true := by
  simp only [WellNested, Option.isSome_iff_exists, Template.parse?_eq_some_iff]

instance (cs : List Char) : Decidable (WellNested cs) := decidable_of_iff _ wellNested_iff.symm

/-- The template of a well-nested text; of any other text, the empty one. -/
def Template.ofText (cs : List Char) : Template := (Template.parse? cs).getD .nil

theorem WellNested.render_ofText {cs : List Char} (h : WellNested cs) :
    (Template.ofText cs).render = cs := by
  obtain ⟨t, rfl⟩ := h
  rw [Template.ofText, Template.parse?_eq_some_iff.mpr rfl, Option.getD_some]

theorem Plain.wellNested {cs : List Char} (h : Plain cs) : WellNested cs :=
  ⟨.ofPlain cs h, Template.render_ofPlain h⟩

end RaftAdmin.Reference
