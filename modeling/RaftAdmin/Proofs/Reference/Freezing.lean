import RaftAdmin.Proofs.Reference.Evaluation

/-!
# Freezing a value

If a name gets its value as raw value, nothing that refers to it changes. The reason is that a value
does not depend on the chain: where the names of the chain lead to a name, the name has the value
that it has by itself, since it cannot lead back to them.

## What is proved

* `eval_of_subset` — a value stays the same on a smaller chain.
* `resolve_of_needs` — and on a larger one, whose names all need the name.
* `eval_freeze` — no template evaluates to anything else once a name is frozen, be it a value or an
  error.
-/

namespace RaftAdmin.Reference

variable {d : Dictionary} {chain : List String} {m n x : String} {t : Template} {v w : List Char}

/-! ### Values on other chains -/

/-- A value stays the same on a smaller chain. -/
theorem eval_of_subset (chain : List String) :
    ∀ chain' ⊆ chain, ∀ t v, eval d chain t = .ok v → eval d chain' t = .ok v := by
  induction chain using d.chain_induction with
  | step chain ihChain =>
    intro chain' hsub t
    induction t with
    | nil =>
      intro v h
      rwa [eval_nil] at h ⊢
    | char c hc rest ih =>
      intro v h
      obtain ⟨u, hu, rfl⟩ := eval_char_eq_ok.mp h
      exact eval_char_eq_ok.mpr ⟨u, ih u hu, rfl⟩
    | ref inner rest ihInner ihRest =>
      intro v h
      obtain ⟨i, w, u, hi, hw, hu, rfl⟩ := eval_ref_eq_ok.mp h
      obtain ⟨hn, raw, hdef, hw⟩ := resolve_eq_ok.mp hw
      have hsub' : chain' ++ [name i] ⊆ chain ++ [name i] :=
        List.append_subset.mpr
          ⟨List.subset_append_of_subset_left _ hsub, List.subset_append_right _ _⟩
      have hw' : resolve d chain' (name i) = .ok w :=
        resolve_eq_ok.mpr
          ⟨fun hmem => hn (hsub hmem), raw, hdef, ihChain _ _ hn hdef _ hsub' _ w hw⟩
      exact eval_ref_eq_ok.mpr ⟨i, w, u, ihInner i hi, hw', ihRest u hu, rfl⟩

/-- A template has the same value on every chain on which it has one. -/
theorem eval_unique {chain chain' : List String} (h : eval d chain t = .ok v)
    (h' : eval d chain' t = .ok w) : v = w := by
  have hv := eval_of_subset chain [] (List.nil_subset _) t v h
  have hw := eval_of_subset chain' [] (List.nil_subset _) t w h'
  exact Except.ok.inj (hv.symm.trans hw)

/-- Whenever `x` has a value, `n` is evaluated for it, with `x` on the chain. -/
def Needs (d : Dictionary) (x n : String) : Prop :=
  ∀ chain v, resolve d chain x = .ok v →
    ∃ chain', chain ++ [x] ⊆ chain' ∧ ∃ w, resolve d chain' n = .ok w

/-- Whenever the template has a value, `n` is evaluated for it. -/
def Requires (d : Dictionary) (t : Template) (n : String) : Prop :=
  ∀ chain v, eval d chain t = .ok v → ∃ w, resolve d chain n = .ok w

theorem Needs.trans (h : Needs d m n) (h' : Needs d n x) : Needs d m x := by
  intro chain v hm
  obtain ⟨chain₁, hsub₁, w, hn⟩ := h chain v hm
  obtain ⟨chain₂, hsub₂, hx⟩ := h' chain₁ w hn
  exact ⟨chain₂, fun y hy => hsub₂ (List.mem_append_left _ (hsub₁ hy)), hx⟩

/-- A name needs what its raw value requires. -/
theorem Requires.needs {raw : List Char} (h : Requires d (.ofText raw) n)
    (hdef : d.define m = .raw raw) : Needs d m n := by
  intro chain v hm
  obtain ⟨-, raw', hdef', hv⟩ := resolve_eq_ok.mp hm
  obtain rfl := Definition.raw.inj (hdef.symm.trans hdef')
  exact ⟨chain ++ [m], List.Subset.refl _, h _ v hv⟩

theorem Requires.char {c : Char} {hc : c ≠ '\x7b' ∧ c ≠ '\x7d'} (h : Requires d t n) :
    Requires d (.char c hc t) n := by
  intro chain v hv
  obtain ⟨u, hu, -⟩ := eval_char_eq_ok.mp hv
  exact h chain u hu

theorem Requires.inner {inner rest : Template} (h : Requires d inner n) :
    Requires d (.ref inner rest) n := by
  intro chain v hv
  obtain ⟨i, -, -, hi, -⟩ := eval_ref_eq_ok.mp hv
  exact h chain i hi

theorem Requires.rest {inner rest : Template} (h : Requires d rest n) :
    Requires d (.ref inner rest) n := by
  intro chain v hv
  obtain ⟨-, -, u, -, -, hu, -⟩ := eval_ref_eq_ok.mp hv
  exact h chain u hu

/-- A reference requires what its name evaluates to, on whichever chain this was found. -/
theorem requires_name {inner rest : Template} {i : List Char} (hi : eval d chain inner = .ok i) :
    Requires d (.ref inner rest) (name i) := by
  intro chain' v hv
  obtain ⟨i', w, -, hi', hw, -⟩ := eval_ref_eq_ok.mp hv
  obtain rfl := eval_unique hi' hi
  exact ⟨w, hw⟩

/-- What is evaluated for a name is not evaluated differently if names that need it are on the
chain: it does not lead back to them. -/
theorem eval_of_needs (hchain : ∀ x ∈ chain, Needs d x n) (inside : List String) :
    n ∈ inside → ∀ t v, eval d inside t = .ok v → eval d (chain ++ inside) t = .ok v := by
  induction inside using d.chain_induction with
  | step inside ih =>
    intro hn t
    induction t with
    | nil =>
      intro v h
      rwa [eval_nil] at h ⊢
    | char c hc rest ihRest =>
      intro v h
      obtain ⟨u, hu, rfl⟩ := eval_char_eq_ok.mp h
      exact eval_char_eq_ok.mpr ⟨u, ihRest u hu, rfl⟩
    | ref inner rest ihInner ihRest =>
      intro v h
      obtain ⟨i, w, u, hi, hw, hu, rfl⟩ := eval_ref_eq_ok.mp h
      obtain ⟨hfresh, raw, hdef, hraw⟩ := resolve_eq_ok.mp hw
      -- a name of the chain would need `n`, which is being resolved already
      have hfresh' : name i ∉ chain := by
        intro hmem
        obtain ⟨chain', hsub, w', hn'⟩ := hchain _ hmem inside w hw
        exact (resolve_eq_ok.mp hn').1 (hsub (List.mem_append_left _ hn))
      have hw' : resolve d (chain ++ inside) (name i) = .ok w := by
        refine resolve_eq_ok.mpr ⟨by simp [hfresh, hfresh'], raw, hdef, ?_⟩
        rw [List.append_assoc]
        exact ih _ _ hfresh hdef (List.mem_append_left _ hn) _ w hraw
      exact eval_ref_eq_ok.mpr ⟨i, w, u, ihInner i hi, hw', ihRest u hu, rfl⟩

/-- A name that has a value by itself has this value wherever the names of the chain need it. -/
theorem resolve_of_needs (hchain : ∀ x ∈ chain, Needs d x n) (hn : n ∉ chain)
    (h : resolve d [] n = .ok w) : resolve d chain n = .ok w := by
  obtain ⟨-, raw, hdef, hraw⟩ := resolve_eq_ok.mp h
  exact resolve_eq_ok.mpr
    ⟨hn, raw, hdef, eval_of_needs hchain [n] (List.mem_singleton_self n) _ w hraw⟩

/-! ### Freezing -/

/-- The name stands for the text instead. -/
def Dictionary.freeze (d : Dictionary) (n : String) (w : List Char) : Dictionary where
  define m := if m = n then .raw w else d.define m
  names := n :: d.names
  mem_names := by
    intro m raw h
    by_cases hm : m = n
    · exact List.mem_cons.mpr (.inl hm)
    · rw [if_neg hm] at h
      exact List.mem_cons_of_mem _ (d.mem_names h)

theorem Dictionary.freeze_define_self : (d.freeze n w).define n = .raw w := if_pos rfl

theorem Dictionary.freeze_define_of_ne (h : m ≠ n) : (d.freeze n w).define m = d.define m :=
  if_neg h

/-- A frozen name has the value that it was frozen with. -/
theorem resolve_freeze_self (hw : Plain w) (hn : n ∉ chain) :
    resolve (d.freeze n w) chain n = .ok w := by
  rw [resolve_of_raw hn Dictionary.freeze_define_self, eval_ofText_of_plain hw]

/-- **Freezing is invisible**: with a name frozen at its value, a template evaluates to what it did,
be it a value or an error, if all that it requires is needed by the names of the chain. -/
theorem eval_freeze (h : resolve d [] n = .ok w) (chain : List String) :
    ∀ t, (∀ m, Requires d t m → ∀ x ∈ chain, Needs d x m) →
      eval (d.freeze n w) chain t = eval d chain t := by
  have hplain : Plain w := by
    obtain ⟨-, raw, -, hraw⟩ := resolve_eq_ok.mp h
    exact plain_of_eval _ hraw
  induction chain using d.chain_induction with
  | step chain ihChain =>
    have hresolve : ∀ m, (∀ x ∈ chain, Needs d x m) →
        resolve (d.freeze n w) chain m = resolve d chain m := by
      intro m hm
      by_cases hmn : m = n
      · subst hmn
        by_cases hmem : m ∈ chain
        · rw [resolve_of_mem hmem, resolve_of_mem hmem]
        · rw [resolve_freeze_self hplain hmem, resolve_of_needs hm hmem h]
      · refine (resolve_congr (fun _ => (Dictionary.freeze_define_of_ne hmn).symm) ?_).symm
        intro raw hmem hdef
        -- what `m` needs is needed by the names that need `m`
        refine (ihChain m raw hmem hdef _ fun l hl x hx => ?_).symm
        rcases List.mem_append.mp hx with hx | hx
        · exact (hm x hx).trans (hl.needs hdef)
        · obtain rfl := List.mem_singleton.mp hx
          exact hl.needs hdef
    intro t
    induction t with
    | nil =>
      intro _
      rw [eval_nil, eval_nil]
    | char c hc rest ih =>
      intro ht
      rw [eval_char, eval_char, ih fun m hm => ht m hm.char]
    | ref inner rest ihInner ihRest =>
      intro ht
      have hinner := ihInner fun m hm => ht m hm.inner
      have hrest := ihRest fun m hm => ht m hm.rest
      cases hi : eval d chain inner with
      | error e => simp only [eval, hinner, hi, bind, Except.bind]
      | ok i =>
        have hname := hresolve (name i) fun x hx => ht _ (requires_name hi) x hx
        simp only [eval, hinner, hi, hname, hrest, bind, Except.bind]

end RaftAdmin.Reference
