import RaftAdmin.Proofs.Reference.Template
import RaftAdmin.Proofs.Reference.Termination

/-!
# Evaluating templates

The meaning of a well-nested text, by recursion on its structure: the pieces from left to right,
the name of a reference before the reference itself. Replacing references one by one, always the
leftmost one without braces inside, computes this meaning.

## What is proved

* `plain_of_eval` — a value has no braces.
* `expands_render` — replacing the references of a written template gives what the template
  evaluates to, be it a value or an error.
-/

namespace RaftAdmin.Reference

mutual

/-- What a template evaluates to, while the names of `chain` are being resolved. -/
def eval (d : Dictionary) (chain : List String) : Template → Except ConfigError (List Char)
  | .nil => return []
  | .char c _ rest => return c :: (← eval d chain rest)
  | .ref inner rest => do
    let inner ← eval d chain inner
    let value ← resolve d chain (name inner)
    return value ++ (← eval d chain rest)
termination_by t => (d.room chain, sizeOf t)

/-- What a name evaluates to, while the names of `chain` are being resolved. -/
def resolve (d : Dictionary) (chain : List String) (n : String) :
    Except ConfigError (List Char) :=
  if _hn : n ∈ chain then throw (.circularDependency n chain)
  else
    match _hdef : d.define n with
    | .unknown => throw (.invalidKey n)
    | .unset => throw (.undefinedKey n)
    | .raw raw => eval d (chain ++ [n]) (.ofText raw)
termination_by (d.room chain, 0)
decreasing_by exact Prod.Lex.left _ _ (d.room_lt _hn _hdef)

end

variable {d : Dictionary} {chain : List String}

/-! ### One step -/

theorem resolve_of_mem {n : String} (h : n ∈ chain) :
    resolve d chain n = .error (.circularDependency n chain) := by
  rw [resolve, dif_pos h]
  rfl

theorem resolve_of_unknown {n : String} (h : n ∉ chain) (hdef : d.define n = .unknown) :
    resolve d chain n = .error (.invalidKey n) := by
  rw [resolve, dif_neg h]
  split
  · rfl
  all_goals simp_all

theorem resolve_of_unset {n : String} (h : n ∉ chain) (hdef : d.define n = .unset) :
    resolve d chain n = .error (.undefinedKey n) := by
  rw [resolve, dif_neg h]
  split
  · simp_all
  · rfl
  · simp_all

theorem resolve_of_raw {n : String} {raw : List Char} (h : n ∉ chain)
    (hdef : d.define n = .raw raw) :
    resolve d chain n = eval d (chain ++ [n]) (.ofText raw) := by
  rw [resolve, dif_neg h]
  split <;> simp_all

theorem eval_nil : eval d chain .nil = .ok [] := by
  rw [eval]
  rfl

theorem eval_char {c : Char} (hc : c ≠ '\x7b' ∧ c ≠ '\x7d') (rest : Template) :
    eval d chain (.char c hc rest) = (eval d chain rest).map (c :: ·) := by
  rw [eval]
  cases eval d chain rest <;> rfl

theorem eval_char_eq_ok {c : Char} {hc : c ≠ '\x7b' ∧ c ≠ '\x7d'} {rest : Template}
    {v : List Char} :
    eval d chain (.char c hc rest) = .ok v ↔ ∃ u, eval d chain rest = .ok u ∧ c :: u = v := by
  rw [eval_char]
  cases eval d chain rest <;> simp [Except.map]

theorem eval_char_eq_error {c : Char} {hc : c ≠ '\x7b' ∧ c ≠ '\x7d'} {rest : Template}
    {e : ConfigError} :
    eval d chain (.char c hc rest) = .error e ↔ eval d chain rest = .error e := by
  rw [eval_char]
  cases eval d chain rest <;> simp [Except.map]

theorem eval_ref_eq_ok {inner rest : Template} {v : List Char} :
    eval d chain (.ref inner rest) = .ok v ↔
      ∃ i w u, eval d chain inner = .ok i ∧ resolve d chain (name i) = .ok w ∧
        eval d chain rest = .ok u ∧ w ++ u = v := by
  rw [eval]
  cases eval d chain inner with
  | error e => simp [bind, Except.bind]
  | ok i =>
    simp only [bind, Except.bind]
    cases hres : resolve d chain (name i) with
    | error e => simp [hres]
    | ok w => cases eval d chain rest <;> simp [hres, pure, Except.pure]

theorem eval_ref_eq_error {inner rest : Template} {e : ConfigError} :
    eval d chain (.ref inner rest) = .error e ↔
      eval d chain inner = .error e ∨ ∃ i, eval d chain inner = .ok i ∧
        (resolve d chain (name i) = .error e ∨ ∃ w, resolve d chain (name i) = .ok w ∧
          eval d chain rest = .error e) := by
  rw [eval]
  cases eval d chain inner with
  | error e => simp [bind, Except.bind]
  | ok i =>
    simp only [bind, Except.bind]
    cases hres : resolve d chain (name i) with
    | error e => simp [hres]
    | ok w => cases eval d chain rest <;> simp [hres, pure, Except.pure]

theorem resolve_eq_ok {n : String} {v : List Char} :
    resolve d chain n = .ok v ↔
      n ∉ chain ∧ ∃ raw, d.define n = .raw raw ∧ eval d (chain ++ [n]) (.ofText raw) = .ok v := by
  rw [resolve]
  split
  · simp_all [throw, throwThe, MonadExceptOf.throw]
  · split <;> simp_all [throw, throwThe, MonadExceptOf.throw]

theorem resolve_eq_error {n : String} {e : ConfigError} :
    resolve d chain n = .error e ↔
      (n ∈ chain ∧ .circularDependency n chain = e) ∨
      (n ∉ chain ∧ d.define n = .unknown ∧ .invalidKey n = e) ∨
      (n ∉ chain ∧ d.define n = .unset ∧ .undefinedKey n = e) ∨
      (n ∉ chain ∧ ∃ raw, d.define n = .raw raw ∧
        eval d (chain ++ [n]) (.ofText raw) = .error e) := by
  rw [resolve]
  split
  · simp_all [throw, throwThe, MonadExceptOf.throw]
  · split <;> simp_all [throw, throwThe, MonadExceptOf.throw]

/-- A value has no braces. -/
theorem plain_of_eval (chain : List String) :
    ∀ {t v}, eval d chain t = .ok v → Plain v := by
  induction chain using d.chain_induction with
  | step chain ihChain =>
    intro t
    induction t with
    | nil =>
      intro v h
      obtain rfl := Except.ok.inj (eval_nil.symm.trans h)
      exact plain_nil
    | char c hc rest ih =>
      intro v h
      obtain ⟨u, hu, rfl⟩ := eval_char_eq_ok.mp h
      exact plain_cons.mpr ⟨hc, ih hu⟩
    | ref inner rest _ ihRest =>
      intro v h
      obtain ⟨i, w, u, -, hw, hu, rfl⟩ := eval_ref_eq_ok.mp h
      obtain ⟨hn, raw, hdef, hw⟩ := resolve_eq_ok.mp hw
      exact plain_append.mpr ⟨ihChain _ _ hn hdef hw, ihRest hu⟩

/-- A template without references is its own value. -/
theorem eval_of_plain {t : Template} (h : Plain t.render) : eval d chain t = .ok t.render := by
  induction t with
  | nil => exact eval_nil
  | char c hc rest ih => exact eval_char_eq_ok.mpr ⟨_, ih (plain_cons.mp h).2, rfl⟩
  | ref inner rest _ _ => exact absurd h.1 (by simp [Template.render, written])

/-- A raw value without references is its own value. -/
theorem eval_ofText_of_plain {cs : List Char} (h : Plain cs) :
    eval d chain (.ofText cs) = .ok cs := by
  have hrender : (Template.ofText cs).render = cs := h.wellNested.render_ofText
  have hplain : Plain (Template.ofText cs).render := by rwa [hrender]
  rw [eval_of_plain hplain, hrender]

/-- A name evaluates to the same in two dictionaries if it stands for the same in both, and its raw
value evaluates to the same. -/
theorem resolve_congr {d d' : Dictionary} {n : String}
    (hdefine : n ∉ chain → d.define n = d'.define n)
    (heval : ∀ raw, n ∉ chain → d.define n = .raw raw →
      eval d (chain ++ [n]) (.ofText raw) = eval d' (chain ++ [n]) (.ofText raw)) :
    resolve d chain n = resolve d' chain n := by
  by_cases hn : n ∈ chain
  · rw [resolve_of_mem hn, resolve_of_mem hn]
  · have hsame := hdefine hn
    cases hdef : d.define n with
    | unknown => rw [resolve_of_unknown hn hdef, resolve_of_unknown hn (hsame ▸ hdef)]
    | unset => rw [resolve_of_unset hn hdef, resolve_of_unset hn (hsame ▸ hdef)]
    | raw raw =>
      rw [resolve_of_raw hn hdef, resolve_of_raw hn (hsame ▸ hdef)]
      exact heval raw hn hdef

/-- What names of the chain stand for does not matter. -/
theorem eval_congr {d d' : Dictionary} (chain : List String)
    (h : ∀ n, n ∉ chain → d.define n = d'.define n) :
    ∀ t, eval d chain t = eval d' chain t := by
  induction chain using d.chain_induction with
  | step chain ihChain =>
    have hresolve : ∀ n, resolve d chain n = resolve d' chain n := fun n =>
      resolve_congr (h n) fun raw hn hdef =>
        ihChain n raw hn hdef (fun m hm => h m fun hmem => hm (by simp [hmem])) _
    intro t
    induction t with
    | nil => rw [eval_nil, eval_nil]
    | char c hc rest ih => rw [eval_char, eval_char, ih]
    | ref inner rest ihInner ihRest => simp only [eval, ihInner, hresolve, ihRest]

/-! ### Replacing is evaluating -/

/-- Expanding a text in which a template has been replaced by its value is expanding the text with
the template in it. No closing brace may stand before it, so that its references come first. -/
theorem expands_of_eval_ok (hd : ∀ n raw, d.define n = .raw raw → WellNested raw)
    (chain : List String) :
    ∀ t v, eval d chain t = .ok v → ∀ before after r, '\x7d' ∉ before →
      Expands d.define chain (before ++ (v ++ after)) r →
        Expands d.define chain (before ++ (t.render ++ after)) r := by
  induction chain using d.chain_induction with
  | step chain ihChain =>
    intro t
    induction t with
    | nil =>
      intro v h before after r hbefore hexp
      obtain rfl := Except.ok.inj (eval_nil.symm.trans h)
      exact hexp
    | char c hc rest ih =>
      intro v h before after r hbefore hexp
      obtain ⟨u, hu, rfl⟩ := eval_char_eq_ok.mp h
      have hc' : '\x7d' ∉ before ++ [c] := by simp [hbefore, hc.2.symm]
      have hrest := ih u hu (before ++ [c]) after r hc' (by simpa using hexp)
      simpa [Template.render] using hrest
    | ref inner rest ihInner ihRest =>
      intro v h before after r hbefore hexp
      obtain ⟨i, w, u, hi, hw, hu, rfl⟩ := eval_ref_eq_ok.mp h
      obtain ⟨hn, raw, hdef, hw⟩ := resolve_eq_ok.mp hw
      have hplain : Plain w := plain_of_eval _ hw
      -- with its name evaluated, the reference is the leftmost one without braces inside
      have hasks : Asks d.define chain (before ++ (written i ++ (rest.render ++ after))) before i
          (rest.render ++ after) raw :=
        ⟨next?_append hbefore (plain_of_eval _ hi) _, hn, hdef⟩
      have hraw : Expands d.define (chain ++ [name i]) raw (.ok w) := by
        have hexp := ihChain _ _ hn hdef _ w hw [] [] _ (by simp)
          (.done (next?_eq_none_of_open (by simpa using hplain.1)))
        rw [(hd _ _ hdef).render_ofText] at hexp
        simpa using hexp
      have hrest : Expands d.define chain (before ++ (w ++ (rest.render ++ after))) r := by
        have hw' : '\x7d' ∉ before ++ w := by simp [hbefore, hplain.2]
        simpa using ihRest u hu (before ++ w) after r hw' (by simpa using hexp)
      have hinner := ihInner i hi (before ++ ['$', '\x7b']) ('\x7d' :: (rest.render ++ after)) r
        (by simp [hbefore]) (by simpa [written] using Expands.replaced hasks hraw hrest)
      simpa [Template.render, written] using hinner

/-- Replacing the references of a written template ends with its value. -/
theorem expands_render_of_eval_ok (hd : ∀ n raw, d.define n = .raw raw → WellNested raw)
    {t : Template} {v : List Char} (h : eval d chain t = .ok v) :
    Expands d.define chain t.render (.ok v) := by
  have hdone : Expands d.define chain v (.ok v) :=
    .done (next?_eq_none_of_open (plain_of_eval _ h).1)
  simpa using expands_of_eval_ok hd chain t v h [] [] _ (by simp) (by simpa using hdone)

/-- Expanding a text fails as the first template in it does. -/
theorem expands_of_eval_error (hd : ∀ n raw, d.define n = .raw raw → WellNested raw)
    (chain : List String) :
    ∀ t e, eval d chain t = .error e → ∀ before after, '\x7d' ∉ before →
      Expands d.define chain (before ++ (t.render ++ after)) (.error e) := by
  induction chain using d.chain_induction with
  | step chain ihChain =>
    intro t
    induction t with
    | nil =>
      intro e h
      exact absurd (eval_nil.symm.trans h) (by simp)
    | char c hc rest ih =>
      intro e h before after hbefore
      have hc' : '\x7d' ∉ before ++ [c] := by simp [hbefore, hc.2.symm]
      simpa [Template.render] using ih e (eval_char_eq_error.mp h) (before ++ [c]) after hc'
    | ref inner rest ihInner ihRest =>
      intro e h before after hbefore
      have hopened : '\x7d' ∉ before ++ ['$', '\x7b'] := by simp [hbefore]
      rcases eval_ref_eq_error.mp h with hi | ⟨i, hi, h⟩
      · simpa [Template.render, written] using
          ihInner e hi (before ++ ['$', '\x7b']) ('\x7d' :: (rest.render ++ after)) hopened
      · have hnext := next?_append hbefore (plain_of_eval _ hi) (rest.render ++ after)
        -- it is enough to fail once the name is evaluated
        suffices hexp : Expands d.define chain (before ++ (written i ++ (rest.render ++ after)))
            (.error e) by
          simpa [Template.render, written] using
            expands_of_eval_ok hd chain inner i hi (before ++ ['$', '\x7b'])
              ('\x7d' :: (rest.render ++ after)) _ hopened (by simpa [written] using hexp)
        rcases h with hname | ⟨w, hw, hrest⟩
        · rcases resolve_eq_error.mp hname with
            ⟨hn, rfl⟩ | ⟨hn, hdef, rfl⟩ | ⟨hn, hdef, rfl⟩ | ⟨hn, raw, hdef, hraw⟩
          · exact .circular hnext hn
          · exact .unknown hnext hn hdef
          · exact .unset hnext hn hdef
          · have hexp := ihChain _ _ hn hdef _ e hraw [] [] (by simp)
            rw [(hd _ _ hdef).render_ofText] at hexp
            exact .failed ⟨hnext, hn, hdef⟩ (by simpa using hexp)
        · obtain ⟨hn, raw, hdef, hraw⟩ := resolve_eq_ok.mp hw
          have hexp := expands_render_of_eval_ok hd hraw
          rw [(hd _ _ hdef).render_ofText] at hexp
          have hw' : '\x7d' ∉ before ++ w := by simp [hbefore, (plain_of_eval _ hraw).2]
          exact .replaced ⟨hnext, hn, hdef⟩ hexp (by simpa using ihRest e hrest _ after hw')

/-- **Replacing is evaluating**: replacing the references of a written template ends with what the
template evaluates to, be it a value or an error. -/
theorem expands_render (hd : ∀ n raw, d.define n = .raw raw → WellNested raw)
    (chain : List String) (t : Template) : Expands d.define chain t.render (eval d chain t) := by
  cases h : eval d chain t with
  | ok v => exact expands_render_of_eval_ok hd h
  | error e => simpa using expands_of_eval_error hd chain t e h [] [] (by simp)

end RaftAdmin.Reference
