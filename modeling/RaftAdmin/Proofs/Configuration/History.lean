import RaftAdmin.Proofs.Configuration.Values

/-!
# The last write wins

What the layered store holds is told by what was written to it: of each name and in each layer, the
last write counts, unless the values of the name were removed since.

## The model

A change of the configuration comes to some writes of a name (`Change.writes`): a value that is set,
values that are merged, or a removal. The writes that still count are the recent ones, those since
the last removal. A set value among them wins over a merged one, and this over the default.

## What is proved

* `held_after` — the layers hold what the writes of a name leave, one after the other.
* `foldl_apply` — what writes leave are the last set and the last merged value of the recent ones.
* **`recorded_after`** — after any changes, the value of every key and its source are told by the
  writes of its name, the names with a value of their own are listed, and no value is empty.
-/

namespace RaftAdmin.Configuration

/-! ### Changes -/

/-- A change of a configuration. -/
inductive Change where
  /-- Entries of a site file are merged. -/
  | merge (entries : List (String × String))
  /-- A run-time value is set, if it may be. -/
  | set (k : PropertyKey) (v : String)
  /-- The values of a key are removed. -/
  | unset (k : PropertyKey)

/-- The configuration after a change. A value that may not be set leaves it as it was. -/
def Change.apply (c : Configuration) : Change → Configuration
  | .merge entries => c.merge entries
  | .set k v =>
    match c.set k v with
    | .ok c' => c'
    | .error _ => c
  | .unset k => c.unset k

/-- The names that a change is about. -/
def Change.names : Change → List String
  | .merge entries => entries.map fun e => Text.trim e.1
  | .set k _ => [k.name]
  | .unset k => [k.name]

theorem Change.apply_set (c : Configuration) (k : PropertyKey) {v : String} (h : v ≠ "") :
    (Change.set k v).apply c = { c with store := c.store.put k v } := by
  show (match c.set k v with | .ok c' => c' | .error _ => c) = _
  rw [set_eq_ok_iff.mpr ⟨h, rfl⟩]

theorem Change.apply_set_empty (c : Configuration) (k : PropertyKey) :
    (Change.set k "").apply c = c := rfl

/-- What some changes make of the configuration in which every key has its default. -/
def after (changes : List Change) : Configuration := changes.foldl Change.apply .empty

/-! ### Writes -/

/-- What a change comes to for one name. -/
inductive Write where
  /-- A run-time value. -/
  | set (v : String)
  /-- A value of a site file. -/
  | merged (v : String)
  /-- Both values are removed. -/
  | removed
deriving DecidableEq

/-- The run-time value that is written. -/
def Write.set? : Write → Option String
  | .set v => some v
  | _ => none

/-- The value of a site file that is written. -/
def Write.merged? : Write → Option String
  | .merged v => some v
  | _ => none

/-- What an entry of a site file comes to for a name: nothing, if the entry has another name, or no
name, or no value. -/
def entryWrite? (n : String) (e : String × String) : Option Write :=
  if Text.trim e.1 = n ∧ n ≠ "" ∧ Text.trim e.2 ≠ "" then some (.merged (Text.trim e.2)) else none

/-- What a change comes to for a name. Nothing is set to an empty value. -/
def Change.writes (n : String) : Change → List Write
  | .merge entries => entries.filterMap (entryWrite? n)
  | .set k v => if k.name = n ∧ v ≠ "" then [.set v] else []
  | .unset k => if k.name = n then [.removed] else []

/-- All writes of a name, in order. -/
def writes (changes : List Change) (n : String) : List Write := changes.flatMap (Change.writes n)

/-- The writes since the last removal, the latest first. -/
def recent (ws : List Write) : List Write := ws.reverse.takeWhile fun w => w ≠ .removed

/-- What writes make the value of a key, and its source: the last set value of the recent ones, else
the last merged one, else the default of the key. -/
def supply (ws : List Write) (k : PropertyKey) : Option (String × Source) :=
  match (recent ws).findSome? Write.set?, (recent ws).findSome? Write.merged? with
  | some v, _ => some (v, .runtime)
  | none, some v => some (v, .siteFile)
  | none, none => k.default?.map fun v => (v, .default)

/-! ### What the layers hold -/

variable {c : Configuration} {k : PropertyKey} {n : String}

/-- What the two layers hold of a name. -/
def held (c : Configuration) (n : String) : Option String × Option String :=
  (c.store.runtime.get? n, c.store.site.get? n)

/-- What the two layers hold of a name after a write. -/
def Write.apply (h : Option String × Option String) : Write → Option String × Option String
  | .set v => (some v, h.2)
  | .merged v => (h.1, some v)
  | .removed => (none, none)

theorem held_mergeEntry (c : Configuration) (e : String × String) (n : String) :
    (c.mergeEntry e).held n = ((entryWrite? n e).toList).foldl Write.apply (c.held n) := by
  unfold mergeEntry entryWrite?
  dsimp only
  by_cases hskip : (Text.trim e.1).isEmpty || (Text.trim e.2).isEmpty
  · rw [if_pos hskip]
    simp only [Bool.or_eq_true, String.isEmpty_iff] at hskip
    rw [if_neg]
    · rfl
    · rintro ⟨rfl, hname, hvalue⟩
      exact hskip.elim hname hvalue
  · rw [if_neg hskip]
    simp only [Bool.or_eq_true, String.isEmpty_iff, not_or] at hskip
    obtain ⟨hname, hvalue⟩ := hskip
    by_cases hn : Text.trim e.1 = n
    · subst hn
      simp [held, Write.apply, Store.putSite, Layer.get?_insert, Registry.name_of_register, hname,
        hvalue]
    · simp [held, Store.putSite, Layer.get?_insert, Registry.name_of_register, hn, Ne.symm hn]

theorem held_merge (c : Configuration) (entries : List (String × String)) (n : String) :
    (c.merge entries).held n
      = (entries.filterMap (entryWrite? n)).foldl Write.apply (c.held n) := by
  induction entries generalizing c with
  | nil => rfl
  | cons e entries ih =>
    rw [merge_cons, ih, held_mergeEntry, List.filterMap_cons]
    cases entryWrite? n e <;> rfl

/-- A change leaves in the layers what it writes. -/
theorem held_apply (c : Configuration) (x : Change) (n : String) :
    (x.apply c).held n = (x.writes n).foldl Write.apply (c.held n) := by
  cases x with
  | merge entries => exact held_merge c entries n
  | set k v =>
    by_cases hv : v = ""
    · subst hv
      simp [Change.apply_set_empty, Change.writes]
    · rw [Change.apply_set c k hv]
      by_cases hn : k.name = n
      · subst hn
        simp [Change.writes, held, Write.apply, Store.put, Layer.get?_insert, hv]
      · simp [Change.writes, held, Store.put, Layer.get?_insert, hn, Ne.symm hn]
  | unset k =>
    by_cases hn : k.name = n
    · subst hn
      simp [Change.apply, Change.writes, Configuration.unset, held, Write.apply, Store.remove,
        Layer.get?_erase]
    · simp [Change.apply, Change.writes, Configuration.unset, held, Store.remove, Layer.get?_erase,
        hn, Ne.symm hn]

/-- The layers hold what the writes leave, one after the other. -/
theorem held_after (changes : List Change) (n : String) :
    (after changes).held n = (writes changes n).foldl Write.apply (none, none) := by
  have hrun : ∀ c : Configuration, (changes.foldl Change.apply c).held n
      = (writes changes n).foldl Write.apply (c.held n) := by
    induction changes with
    | nil => exact fun _ => rfl
    | cons x changes ih =>
      intro c
      rw [List.foldl_cons, ih, held_apply, writes, writes, List.flatMap_cons, List.foldl_append]
  exact hrun .empty

/-- What writes leave are the last set and the last merged value of the recent ones. -/
theorem foldl_apply (ws : List Write) :
    ws.foldl Write.apply (none, none)
      = ((recent ws).findSome? Write.set?, (recent ws).findSome? Write.merged?) := by
  rw [List.foldl_eq_foldr_reverse, recent]
  -- The latest write comes first, and a removal cuts off all that come after it in this order.
  induction ws.reverse with
  | nil => rfl
  | cons w ws ih =>
    rw [List.foldr_cons, ih]
    cases w <;> simp [Write.apply, Write.set?, Write.merged?, List.findSome?_cons]

theorem lookup_eq (c : Configuration) (k : PropertyKey) :
    c.store.lookup k =
      match c.held k.name with
      | (some v, _) => some (v, .runtime)
      | (none, some v) => some (v, .siteFile)
      | (none, none) => k.default?.map fun v => (v, .default) := by
  unfold Store.lookup held
  cases c.store.runtime.get? k.name <;> cases c.store.site.get? k.name <;> rfl

/-- The value of a key and its source are told by the writes of its name. -/
theorem lookup_after (changes : List Change) (k : PropertyKey) :
    (after changes).store.lookup k = supply (writes changes k.name) k := by
  rw [lookup_eq, held_after, foldl_apply, supply]
  cases (recent (writes changes k.name)).findSome? Write.set? <;>
    cases (recent (writes changes k.name)).findSome? Write.merged? <;> rfl

/-! ### Names and values -/

theorem distinct_mergeEntry (h : c.store.Distinct) (e : String × String) :
    (c.mergeEntry e).store.Distinct := by
  unfold mergeEntry
  dsimp only
  split
  · exact h
  · exact h.putSite _ _

theorem distinct_merge (h : c.store.Distinct) (entries : List (String × String)) :
    (c.merge entries).store.Distinct := by
  induction entries generalizing c with
  | nil => exact h
  | cons e entries ih =>
    rw [merge_cons]
    exact ih (distinct_mergeEntry h e)

theorem Reached.apply (h : c.Reached) (x : Change) : (x.apply c).Reached := by
  cases x with
  | merge entries => exact h.merge entries
  | unset k => exact h.unset k
  | set k v =>
    by_cases hv : v = ""
    · subst hv
      exact h
    · rw [Change.apply_set c k hv]
      exact h.set (set_eq_ok_iff.mpr ⟨hv, rfl⟩)

/-- A reached configuration has at most one value of a name in each layer. -/
theorem Reached.distinct (h : c.Reached) : c.store.Distinct := by
  induction h with
  | empty => exact Store.distinct_empty
  | merge entries _ ih => exact distinct_merge ih entries
  | unset k _ ih => exact ih.remove k
  | note names _ ih => exact ih
  | templateKey t service _ ih => exact ih
  | set _ hset ih =>
    obtain ⟨-, rfl⟩ := set_eq_ok_iff.mp hset
    exact ih.put _ _

theorem reached_after (changes : List Change) : (after changes).Reached := by
  have hrun : ∀ {c : Configuration}, c.Reached → (changes.foldl Change.apply c).Reached := by
    induction changes with
    | nil => exact id
    | cons x changes ih => exact fun h => ih (h.apply x)
  exact hrun .empty

/-- A change writes nothing for a name that it is not about. -/
theorem writes_eq_nil {x : Change} (h : n ∉ x.names) : x.writes n = [] := by
  cases x with
  | merge entries =>
    rw [Change.writes, List.filterMap_eq_nil_iff]
    intro e he
    refine if_neg fun hn => h ?_
    exact List.mem_map.mpr ⟨e, he, hn.1⟩
  | set k v =>
    refine if_neg fun hn => h ?_
    simp [Change.names, hn.1]
  | unset k =>
    refine if_neg fun hn => h ?_
    simp [Change.names, hn]

/-- No change has an effect on a key that it is not about. -/
theorem lookup_apply (c : Configuration) {x : Change} (h : k.name ∉ x.names) :
    (x.apply c).store.lookup k = c.store.lookup k := by
  rw [lookup_eq, lookup_eq, held_apply, writes_eq_nil h, List.foldl_nil]

/-- What a configuration holds is what was written, the last write first. -/
structure Recorded (changes : List Change) (c : Configuration) : Prop where
  /-- The value of a key is the one that its writes supply, -/
  value : ∀ k, c.store.get? k = (supply (writes changes k.name) k).map Prod.fst
  /-- and its source is the layer that they supply it in. -/
  source : ∀ k, c.source? k = (supply (writes changes k.name) k).map Prod.snd
  /-- The default of a key of the configuration is the declared one. -/
  default : ∀ k, c.Owns k → k.default? = (Registry.declared? k.name).bind PropertyKey.default?
  /-- To set a value fails if it is empty, and only then, -/
  rejected : ∀ k v e, c.set k v = .error e ↔ v = "" ∧ e = .emptyValue k.name
  /-- and then leaves the configuration as it was. -/
  unchanged : ∀ k, (Change.set k "").apply c = c
  /-- A change leaves the keys of other names. -/
  others : ∀ (x : Change) k, k.name ∉ x.names →
    (x.apply c).store.get? k = c.store.get? k ∧ (x.apply c).source? k = c.source? k
  /-- The names with a value of their own are those that a layer supplies, -/
  listed : ∀ k, k.name ∈ c.userNames ↔
    c.source? k = some .runtime ∨ c.source? k = some .siteFile
  /-- in order and once each. -/
  ordered : c.userNames.Pairwise (· < ·)
  /-- No value of a layer is empty. -/
  filled : ∀ e ∈ c.store.runtime.entries ++ c.store.site.entries, e.2 ≠ ""

/-- **The last write wins.** After any merging, setting and removing, the raw value of every key is
the last that was set since its values were last removed, else the last that was merged since then,
else its default; the source tells which; and the names with a value of their own are listed. -/
theorem recorded_after (changes : List Change) : Recorded changes (after changes) where
  value k := congrArg (Option.map Prod.fst) (lookup_after changes k)
  source k := congrArg (Option.map Prod.snd) (lookup_after changes k)
  default k hk := hk.trans ((reached_after changes).filled.known.default?_find? k.name)
  rejected k v e := by
    constructor
    · intro h
      by_cases hv : v = ""
      · subst hv
        exact ⟨rfl, (Except.error.inj h).symm⟩
      · rw [set_eq_ok_iff.mpr ⟨hv, rfl⟩] at h
        cases h
    · rintro ⟨rfl, rfl⟩
      rfl
  unchanged k := Change.apply_set_empty _ k
  others x k h := by
    have hlookup := lookup_apply (after changes) h
    exact ⟨congrArg (Option.map Prod.fst) hlookup, congrArg (Option.map Prod.snd) hlookup⟩
  listed k := Store.mem_userNames_iff
  ordered := (reached_after changes).distinct.pairwise_userNames
  filled e he := by
    have hfilled := (reached_after changes).filled
    rcases List.mem_append.mp he with he | he
    · exact hfilled.runtime e he
    · exact hfilled.site e he

/-- Of the entries of one merge the last one with a value counts, and a value that was removed does
not come back. -/
example :
    let k := PropertyKey.custom "a"
    let c := after
      [.set k "1", .unset k, .merge [(" a ", " 2 "), ("a", "3"), ("a", " ")], .set k ""]
    c.store.lookup k = some ("3", .siteFile) := by
  decide

end RaftAdmin.Configuration
