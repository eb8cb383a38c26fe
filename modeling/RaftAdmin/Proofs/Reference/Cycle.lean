import RaftAdmin.Proofs.Reference.Evaluation
import Mathlib.Data.List.Chain
import Mathlib.Logic.Relation

/-!
# References as a graph

If no reference has a reference in its name, the names and what their values refer to are a graph.
Evaluating a name walks this graph depth first, and the chain is the path to where the walk is.

## What is proved

* `resolves_iff` — a name evaluates to a value exactly if every name that can be reached from it has
  a raw value and lies on no cycle.
* `path_of_circular` — a circular dependency is reported with a path in the graph that closes.
-/

namespace RaftAdmin.Reference

open Relation

/-! ### Flat texts -/

/-- The braces of the text belong to references without references in their names. -/
inductive Flat : List Char → Prop where
  /-- The empty text. -/
  | nil : Flat []
  /-- A character other than a brace. -/
  | char {c : Char} {cs : List Char} : c ≠ '\x7b' ∧ c ≠ '\x7d' → Flat cs → Flat (c :: cs)
  /-- A reference. -/
  | ref {inner cs : List Char} : Plain inner → Flat cs → Flat (written inner ++ cs)

/-- The text has a reference to the name. -/
def Mentions (text : List Char) (n : String) : Prop :=
  ∃ before inner after, text = before ++ (written inner ++ after) ∧ Plain inner ∧ name inner = n

namespace Template

/-- No reference has a reference in its name. -/
def IsFlat : Template → Prop
  | nil => True
  | char _ _ rest => rest.IsFlat
  | ref inner rest => Plain inner.render ∧ rest.IsFlat

/-- The names that the references of a flat template ask for. -/
def names : Template → List String
  | nil => []
  | char _ _ rest => rest.names
  | ref inner rest => name inner.render :: rest.names

end Template

theorem flat_iff {cs : List Char} : Flat cs ↔ ∃ t : Template, t.IsFlat ∧ t.render = cs := by
  constructor
  · intro h
    induction h with
    | nil => exact ⟨.nil, trivial, rfl⟩
    | char hc _ ih =>
      obtain ⟨t, ht, rfl⟩ := ih
      exact ⟨.char _ hc t, ht, rfl⟩
    | ref hinner _ ih =>
      obtain ⟨t, ht, rfl⟩ := ih
      exact ⟨.ref (.ofPlain _ hinner) t, ⟨by simpa using hinner, ht⟩, by simp [Template.render]⟩
  · rintro ⟨t, ht, rfl⟩
    induction t with
    | nil => exact .nil
    | char c hc rest ih => exact .char hc (ih ht)
    | ref inner rest _ ih => exact .ref ht.1 (ih ht.2)

namespace Template

/-- Whether a template is flat is checked along it. -/
instance decidableIsFlat : (t : Template) → Decidable t.IsFlat
  | nil => .isTrue trivial
  | char _ _ rest => decidableIsFlat rest
  | ref _ rest => @instDecidableAnd _ _ _ (decidableIsFlat rest)

theorem open_ne_render (t : Template) (cs : List Char) : t.render ≠ '\x7b' :: cs := by
  cases t with
  | nil => simp [render]
  | char c hc rest => simp [render, hc.1]
  | ref inner rest => simp [render, written]

/-- The references in a flat text are those of its template. -/
theorem mem_names_of_eq {t : Template} (ht : t.IsFlat) {before inner after : List Char}
    (hinner : Plain inner) (h : t.render = before ++ (written inner ++ after)) :
    name inner ∈ t.names := by
  induction t generalizing before with
  | nil => exact absurd h (by simp [render, written])
  | char c hc rest ih =>
    cases before with
    | nil =>
      have htail : rest.render = '\x7b' :: (inner ++ '\x7d' :: after) := by
        simpa [render, written] using (List.cons.inj h).2
      exact absurd htail (open_ne_render _ _)
    | cons b before => exact ih ht (List.cons.inj h).2
  | ref i rest _ ih =>
    rcases written_append_eq ht.1 hinner h with rfl | ⟨between, hrest⟩
    · exact List.mem_cons_self
    · exact List.mem_cons_of_mem _ (ih ht.2 hrest)

theorem mentions_of_mem_names {t : Template} (ht : t.IsFlat) {n : String} (h : n ∈ t.names) :
    Mentions t.render n := by
  induction t with
  | nil => exact absurd h (by simp [names])
  | char c hc rest ih =>
    obtain ⟨before, inner, after, heq, hinner, rfl⟩ := ih ht h
    exact ⟨c :: before, inner, after, by simp [render, heq], hinner, rfl⟩
  | ref i rest _ ih =>
    rcases List.mem_cons.mp h with rfl | h
    · exact ⟨[], i.render, rest.render, rfl, ht.1, rfl⟩
    · obtain ⟨before, inner, after, heq, hinner, rfl⟩ := ih ht.2 h
      exact ⟨written i.render ++ before, inner, after, by simp [render, heq], hinner, rfl⟩

theorem mem_names_iff {t : Template} (ht : t.IsFlat) {n : String} :
    n ∈ t.names ↔ Mentions t.render n := by
  refine ⟨mentions_of_mem_names ht, ?_⟩
  rintro ⟨before, inner, after, heq, hinner, rfl⟩
  exact mem_names_of_eq ht hinner heq

end Template

theorem Flat.wellNested {cs : List Char} (h : Flat cs) : WellNested cs := by
  obtain ⟨t, -, ht⟩ := flat_iff.mp h
  exact ⟨t, ht⟩

theorem Flat.isFlat_ofText {cs : List Char} (h : Flat cs) : (Template.ofText cs).IsFlat := by
  obtain ⟨t, ht, rfl⟩ := flat_iff.mp h
  rwa [Template.render_injective (WellNested.render_ofText ⟨t, rfl⟩)]

theorem flat_iff_ofText {cs : List Char} :
    Flat cs ↔ WellNested cs ∧ (Template.ofText cs).IsFlat := by
  refine ⟨fun h => ⟨h.wellNested, h.isFlat_ofText⟩, fun ⟨h, ht⟩ => ?_⟩
  exact flat_iff.mpr ⟨_, ht, h.render_ofText⟩

instance (cs : List Char) : Decidable (Flat cs) := decidable_of_iff _ flat_iff_ofText.symm

/-! ### Evaluating flat templates -/

variable {d : Dictionary} {chain : List String}

/-- A flat template has a value exactly if all its names have. -/
theorem eval_ok_iff {t : Template} (ht : t.IsFlat) :
    (∃ v, eval d chain t = .ok v) ↔ ∀ n ∈ t.names, ∃ v, resolve d chain n = .ok v := by
  induction t with
  | nil => simp [eval_nil, Template.names]
  | char c hc rest ih => simp [eval_char_eq_ok, Template.names, ← ih ht]
  | ref inner rest _ ih =>
    simp only [eval_ref_eq_ok, eval_of_plain ht.1, Template.names, List.forall_mem_cons, ← ih ht.2]
    constructor
    · rintro ⟨v, i, w, u, hi, hw, hu, rfl⟩
      obtain rfl := Except.ok.inj hi
      exact ⟨⟨w, hw⟩, u, hu⟩
    · rintro ⟨⟨w, hw⟩, u, hu⟩
      exact ⟨_, _, w, u, rfl, hw, hu, rfl⟩

/-- A flat template fails as one of its names does. -/
theorem eval_error_of_flat {t : Template} (ht : t.IsFlat) {e : ConfigError}
    (h : eval d chain t = .error e) : ∃ n ∈ t.names, resolve d chain n = .error e := by
  induction t with
  | nil => exact absurd (eval_nil.symm.trans h) (by simp)
  | char c hc rest ih => exact ih ht (eval_char_eq_error.mp h)
  | ref inner rest _ ih =>
    rcases eval_ref_eq_error.mp h with hi | ⟨i, hi, hname | ⟨w, -, hrest⟩⟩
    · rw [eval_of_plain ht.1] at hi
      exact absurd hi (by simp)
    · rw [eval_of_plain ht.1] at hi
      obtain rfl := Except.ok.inj hi
      exact ⟨_, List.mem_cons_self, hname⟩
    · obtain ⟨n, hn, hres⟩ := ih ht.2 hrest
      exact ⟨n, List.mem_cons_of_mem _ hn, hres⟩

/-! ### The graph -/

/-- The raw value of `m` refers to `n`. -/
def Dictionary.Refers (d : Dictionary) (m n : String) : Prop :=
  ∃ raw, d.define m = .raw raw ∧ Mentions raw n

/-- The name evaluates to a value, while the names of `chain` are being resolved. -/
def Resolves (d : Dictionary) (chain : List String) (n : String) : Prop :=
  ∃ v, resolve d chain n = .ok v

/-- The braces of all values belong to flat references. -/
def Dictionary.AllFlat (d : Dictionary) : Prop := ∀ n raw, d.define n = .raw raw → Flat raw

variable {m n : String}

/-- The names of the template of a raw value are those it refers to. -/
theorem Dictionary.AllFlat.mem_names_iff (hd : d.AllFlat) {raw : List Char}
    (hdef : d.define m = .raw raw) : n ∈ (Template.ofText raw).names ↔ d.Refers m n := by
  have hflat := hd _ _ hdef
  rw [Template.mem_names_iff hflat.isFlat_ofText, hflat.wellNested.render_ofText]
  constructor
  · exact fun h => ⟨raw, hdef, h⟩
  · rintro ⟨raw', hdef', h⟩
    obtain rfl := Definition.raw.inj (hdef.symm.trans hdef')
    exact h

/-- One step of the walk. -/
theorem resolves_iff_refers (hd : d.AllFlat) :
    Resolves d chain n ↔ n ∉ chain ∧ (∃ raw, d.define n = .raw raw) ∧
      ∀ m, d.Refers n m → Resolves d (chain ++ [n]) m := by
  constructor
  · rintro ⟨v, h⟩
    obtain ⟨hn, raw, hdef, hv⟩ := resolve_eq_ok.mp h
    refine ⟨hn, ⟨raw, hdef⟩, fun m hm => ?_⟩
    exact (eval_ok_iff (hd _ _ hdef).isFlat_ofText).mp ⟨v, hv⟩ m ((hd.mem_names_iff hdef).mpr hm)
  · rintro ⟨hn, ⟨raw, hdef⟩, h⟩
    obtain ⟨v, hv⟩ := (eval_ok_iff (hd _ _ hdef).isFlat_ofText).mpr fun m hm =>
      h m ((hd.mem_names_iff hdef).mp hm)
    exact ⟨v, resolve_eq_ok.mpr ⟨hn, raw, hdef, hv⟩⟩

/-- The walk to a name with a value meets only names with a value, on longer and longer chains. -/
theorem Resolves.of_reach (hd : d.AllFlat) (h : Resolves d chain m)
    (hreach : ReflTransGen d.Refers m n) :
    ∃ chain', chain ⊆ chain' ∧ Resolves d chain' n := by
  induction hreach with
  | refl => exact ⟨chain, List.Subset.refl _, h⟩
  | @tail l n _ hstep ih =>
    obtain ⟨chain', hsub, hl⟩ := ih
    obtain ⟨-, -, hnext⟩ := (resolves_iff_refers hd).mp hl
    exact ⟨chain' ++ [l], fun x hx => List.mem_append_left _ (hsub hx), hnext n hstep⟩

/-- A name with a value lies on no cycle. -/
theorem Resolves.not_cycle (hd : d.AllFlat) (h : Resolves d chain n) :
    ¬ TransGen d.Refers n n := by
  intro hcycle
  obtain ⟨m, hstep, hback⟩ := TransGen.head'_iff.mp hcycle
  obtain ⟨-, -, hnext⟩ := (resolves_iff_refers hd).mp h
  -- back at the name, it is on the chain
  obtain ⟨chain', hsub, hn⟩ := (hnext m hstep).of_reach hd hback
  exact ((resolves_iff_refers hd).mp hn).1 (hsub (by simp))

/-- The walk never comes back to its chain if there is no cycle. -/
theorem resolves_of_acyclic (hd : d.AllFlat) (chain : List String) :
    ∀ n, (∀ x ∈ chain, TransGen d.Refers x n) →
      (∀ m, ReflTransGen d.Refers n m → (∃ raw, d.define m = .raw raw) ∧ ¬ TransGen d.Refers m m) →
        Resolves d chain n := by
  induction chain using d.chain_induction with
  | step chain ih =>
    intro n hchain hreach
    obtain ⟨⟨raw, hdef⟩, hacyclic⟩ := hreach n .refl
    have hn : n ∉ chain := fun hmem => hacyclic (hchain n hmem)
    refine (resolves_iff_refers hd).mpr ⟨hn, ⟨raw, hdef⟩, fun m hm => ?_⟩
    refine ih n raw hn hdef m (fun x hx => ?_) fun l hl => hreach l (.head hm hl)
    rcases List.mem_append.mp hx with hx | hx
    · exact (hchain x hx).tail hm
    · obtain rfl := List.mem_singleton.mp hx
      exact .single hm

/-- **Cycle detection is exact**: a name evaluates to a value if and only if every name that can be
reached from it has a raw value and lies on no cycle. -/
theorem resolves_iff (hd : d.AllFlat) :
    Resolves d [] n ↔ ∀ m, ReflTransGen d.Refers n m →
      (∃ raw, d.define m = .raw raw) ∧ ¬ TransGen d.Refers m m := by
  constructor
  · intro h m hreach
    obtain ⟨chain, -, hm⟩ := h.of_reach hd hreach
    exact ⟨((resolves_iff_refers hd).mp hm).2.1, hm.not_cycle hd⟩
  · exact resolves_of_acyclic hd [] n (by simp)

/-! ### What is reported -/

/-- The names that a circular dependency reports: those that were being resolved, then a path that
leads from the name to the one that is met again. -/
theorem path_of_circular (hd : d.AllFlat) (chain : List String) :
    ∀ n key reported, resolve d chain n = .error (.circularDependency key reported) →
      key ∈ reported ∧ ∃ path, reported = chain ++ path ∧ path.Nodup ∧ (∀ x ∈ path, x ∉ chain) ∧
        (path ++ [key]).head? = some n ∧ (path ++ [key]).IsChain d.Refers := by
  induction chain using d.chain_induction with
  | step chain ih =>
    intro n key reported h
    rcases resolve_eq_error.mp h with
      ⟨hn, heq⟩ | ⟨-, -, heq⟩ | ⟨-, -, heq⟩ | ⟨hn, raw, hdef, herr⟩
    · obtain ⟨rfl, rfl⟩ := ConfigError.circularDependency.inj heq
      exact ⟨hn, [], by simp⟩
    · exact absurd heq (by simp)
    · exact absurd heq (by simp)
    · obtain ⟨m, hm, hres⟩ := eval_error_of_flat (hd _ _ hdef).isFlat_ofText herr
      obtain ⟨hkey, path, rfl, hnodup, hfresh, hhead, hpath⟩ := ih n raw hn hdef m key _ hres
      have hstep : d.Refers n m := (hd.mem_names_iff hdef).mp hm
      refine ⟨hkey, n :: path, by simp, ?_, ?_, rfl, ?_⟩
      · exact List.nodup_cons.mpr ⟨fun hmem => hfresh n hmem (by simp), hnodup⟩
      · simp only [List.forall_mem_cons]
        exact ⟨hn, fun x hx hmem => hfresh x hx (List.mem_append_left _ hmem)⟩
      · exact List.isChain_cons.mpr ⟨fun y hy => by simp_all, hpath⟩

end RaftAdmin.Reference
