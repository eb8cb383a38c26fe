import Mathlib.Data.List.Basic
import Mathlib.Data.List.Forall2
import Mathlib.Logic.Relation
import RaftAdmin.Site.Nested

/-!
# The entries of a nested site file

A nested site file is a tree of mappings. Its leaves are its entries, and their names are the keys
on the way to them with dots between them, so that it does not matter which part of a name is
written as a key with dots and which part is nested.

## The model

`Unfit` says that a tree has a part that no site file may have. `leaves` walks through a tree in the
order of the document and keeps the keys on the way to each leaf. `Unnests` replaces one nested
mapping, anywhere in a tree, by entries with dotted keys; whether these repeat a key does not
matter here. No dot follows an empty name, so the outermost keys may not be empty; any other may.

## What is proved

* `flatten_eq_none_iff` — flattening fails exactly for unfit trees.
* `flatten_eq_some_iff` — flattening gives the leaves.
* `flatten_of_unnests` — a nested mapping can be replaced by entries with dotted keys.
* **`nesting_means_dots`** — all of this for the tree of a file.
-/

namespace RaftAdmin.Nested

open Yaml (Value)

variable {name key : String} {v v' k : Value} {entries before after : List (Value × Value)}
  {items : List Value} {found : List (String × String)}

/-! ### Trees -/

/-- The value is a string, a number or a truth value. -/
inductive Scalar : Value → Prop
  | text (s : String) : Scalar (.text s)
  | number (n : Yaml.Number) : Scalar (.number n)
  | bool (b : Bool) : Scalar (.bool b)

/-- The value is a part of a tree. -/
inductive Within (w : Value) : Value → Prop
  /-- The whole tree. -/
  | self : Within w w
  /-- A part of a key. -/
  | key {k v : Value} {entries : List (Value × Value)} (h : (k, v) ∈ entries) (hw : Within w k) :
    Within w (.mapping entries)
  /-- A part of the value of a key. -/
  | value {k v : Value} {entries : List (Value × Value)} (h : (k, v) ∈ entries)
    (hw : Within w v) : Within w (.mapping entries)
  /-- A part of an item. -/
  | item {v : Value} {items : List Value} (h : v ∈ items) (hw : Within w v) :
    Within w (.sequence items)
  /-- A part of what has a tag. -/
  | tagged {tag : String} {v : Value} (hw : Within w v) : Within w (.tagged tag v)

/-- The value cannot stand in a site file, whatever its keys and items are made of. -/
inductive Flawed : Value → Prop
  /-- A key is no scalar. -/
  | key {k v : Value} {entries : List (Value × Value)} (h : (k, v) ∈ entries) (hk : ¬ Scalar k) :
    Flawed (.mapping entries)
  /-- An item is no scalar. -/
  | item {v : Value} {items : List Value} (h : v ∈ items) (hv : ¬ Scalar v) :
    Flawed (.sequence items)
  /-- There is a tag. -/
  | tagged (tag : String) (v : Value) : Flawed (.tagged tag v)

/-- A part of the tree cannot stand in a site file. -/
def Unfit (v : Value) : Prop := ∃ w, Within w v ∧ Flawed w

theorem Scalar.not_unfit (h : Scalar v) : ¬ Unfit v := by
  rintro ⟨w, hw, hflawed⟩
  cases h <;> cases hw <;> cases hflawed

theorem not_unfit_null : ¬ Unfit .null := by
  rintro ⟨w, hw, hflawed⟩
  cases hw
  cases hflawed

theorem unfit_tagged (tag : String) (v : Value) : Unfit (.tagged tag v) :=
  ⟨_, .self, .tagged tag v⟩

theorem unfit_sequence_iff : Unfit (.sequence items) ↔ ∃ v ∈ items, ¬ Scalar v := by
  constructor
  · rintro ⟨w, hw, hflawed⟩
    cases hw with
    | self =>
      cases hflawed with
      | item hv hscalar => exact ⟨_, hv, hscalar⟩
    | item hv hw => exact ⟨_, hv, fun hscalar => hscalar.not_unfit ⟨w, hw, hflawed⟩⟩
  · rintro ⟨v, hv, hscalar⟩
    exact ⟨_, .self, .item hv hscalar⟩

theorem unfit_mapping_iff : Unfit (.mapping entries) ↔ ∃ e ∈ entries, ¬ Scalar e.1 ∨ Unfit e.2 := by
  constructor
  · rintro ⟨w, hw, hflawed⟩
    cases hw with
    | self =>
      cases hflawed with
      | key he hk => exact ⟨_, he, .inl hk⟩
    | key he hw => exact ⟨_, he, .inl fun hk => hk.not_unfit ⟨w, hw, hflawed⟩⟩
    | value he hw => exact ⟨_, he, .inr ⟨w, hw, hflawed⟩⟩
  · rintro ⟨⟨k, v⟩, he, hk | ⟨w, hw, hflawed⟩⟩
    · exact ⟨_, .self, .key he hk⟩
    · exact ⟨w, .value he hw, hflawed⟩

/-! ### Scalars -/

/-- The text of a scalar, and nothing for anything else. -/
def textOf (v : Value) : String := (scalar? v).getD ""

/-- The text of a scalar, or of the items of a sequence. -/
def leafText : Value → String
  | .sequence items => Text.joinWith "," (items.map textOf)
  | v => textOf v

theorem scalar?_eq_none_iff : scalar? v = none ↔ ¬ Scalar v := by
  constructor
  · rintro h (_ | _ | _ | _) <;> simp [scalar?] at h
  · intro h
    cases v with
    | text s => exact absurd (.text s) h
    | number n => exact absurd (.number n) h
    | bool b => exact absurd (.bool b) h
    | null | sequence | mapping | tagged => rfl

theorem textOf_eq (h : scalar? v = some key) : textOf v = key := by
  rw [textOf, h, Option.getD_some]

theorem mapM_scalar?_eq_none_iff : items.mapM scalar? = none ↔ ∃ v ∈ items, ¬ Scalar v := by
  induction items with
  | nil => simp
  | cons v items ih =>
    rw [List.mapM_cons, List.exists_mem_cons_iff, ← scalar?_eq_none_iff, ← ih]
    cases scalar? v <;> cases items.mapM scalar? <;> simp

theorem eq_map_of_mapM_scalar? {parts : List String} (h : items.mapM scalar? = some parts) :
    parts = items.map textOf := by
  induction items generalizing parts with
  | nil => simpa using h.symm
  | cons v items ih =>
    simp only [List.mapM_cons, Option.bind_eq_bind, Option.bind_eq_some_iff, Option.pure_def,
      Option.some.injEq] at h
    obtain ⟨text, htext, texts, htexts, rfl⟩ := h
    rw [List.map_cons, textOf_eq htext, ih htexts]

/-! ### Leaves -/

mutual

/-- The leaves of a tree in the order of the document, with the keys on the way to them. -/
def leaves : Value → List (List Value × Value)
  | .mapping entries => leavesOfEntries entries
  | .null => []
  | v => [([], v)]

/-- The leaves of the entries of a mapping. -/
def leavesOfEntries : List (Value × Value) → List (List Value × Value)
  | [] => []
  | (k, v) :: entries => (leaves v).map (fun l => (k :: l.1, l.2)) ++ leavesOfEntries entries

end

/-- The entry of a leaf. -/
def entry (leaf : List Value × Value) : String × String :=
  (Text.joinWith "." (leaf.1.map textOf), leafText leaf.2)

/-- The entry of a leaf of a tree with a name. -/
def entryBelow (name : String) (leaf : List Value × Value) : String × String :=
  ((leaf.1.map textOf).foldl below name, leafText leaf.2)

theorem flattenEntries_cons (name : String) (k v : Value) (entries : List (Value × Value)) :
    flattenEntries name ((k, v) :: entries) = (scalar? k).bind fun key =>
      (flatten (below name key) v).bind fun front =>
        (flattenEntries name entries).map (front ++ ·) := by
  rw [flattenEntries]
  cases scalar? k with
  | none => rfl
  | some key =>
    dsimp only [Option.bind_some]
    cases flatten (below name key) v <;> rfl

mutual

/-- Flattening fails exactly for unfit trees. -/
theorem flatten_eq_none_iff (name : String) : ∀ v, flatten name v = none ↔ Unfit v
  | .mapping entries => by rw [flatten, flattenEntries_eq_none_iff, unfit_mapping_iff]
  | .sequence items => by
    rw [flatten, Option.map_eq_none_iff, mapM_scalar?_eq_none_iff, unfit_sequence_iff]
  | .null => by simp [flatten, not_unfit_null]
  | .tagged tag v => by simp [flatten, scalar?, unfit_tagged]
  | .text s => by simp [flatten, scalar?, (Scalar.text s).not_unfit]
  | .number n => by simp [flatten, scalar?, (Scalar.number n).not_unfit]
  | .bool b => by cases b <;> simp [flatten, scalar?, (Scalar.bool _).not_unfit]

theorem flattenEntries_eq_none_iff (name : String) :
    ∀ entries, flattenEntries name entries = none ↔ ∃ e ∈ entries, ¬ Scalar e.1 ∨ Unfit e.2
  | [] => by simp [flattenEntries]
  | (k, v) :: entries => by
    rw [flattenEntries_cons, List.exists_mem_cons_iff, ← scalar?_eq_none_iff,
      ← flattenEntries_eq_none_iff name entries]
    cases scalar? k with
    | none => simp
    | some key =>
      rw [← flatten_eq_none_iff (below name key) v, Option.bind_some]
      cases flatten (below name key) v <;> simp

end

mutual

theorem eq_leaves_of_flatten (name : String) {found : List (String × String)} :
    ∀ v, flatten name v = some found → found = (leaves v).map (entryBelow name)
  | .mapping entries, h => by
    rw [flatten] at h
    rw [leaves, eq_leaves_of_flattenEntries name entries h]
  | .sequence items, h => by
    rw [flatten, Option.map_eq_some_iff] at h
    obtain ⟨parts, hparts, rfl⟩ := h
    simp [leaves, entryBelow, leafText, eq_map_of_mapM_scalar? hparts]
  | .null, h => by simpa [flatten, leaves] using h.symm
  | .tagged tag v, h => by simp [flatten, scalar?] at h
  | .text s, h => by simpa [flatten, scalar?, leaves, entryBelow, leafText, textOf] using h.symm
  | .number n, h => by simpa [flatten, scalar?, leaves, entryBelow, leafText, textOf] using h.symm
  | .bool b, h => by
    cases b <;> simpa [flatten, scalar?, leaves, entryBelow, leafText, textOf] using h.symm

theorem eq_leaves_of_flattenEntries (name : String) {found : List (String × String)} :
    ∀ entries, flattenEntries name entries = some found →
      found = (leavesOfEntries entries).map (entryBelow name)
  | [], h => by simpa [flattenEntries, leavesOfEntries] using h.symm
  | (k, v) :: entries, h => by
    rw [flattenEntries_cons] at h
    obtain ⟨key, hkey, h⟩ := Option.bind_eq_some_iff.mp h
    obtain ⟨front, hfront, h⟩ := Option.bind_eq_some_iff.mp h
    obtain ⟨back, hback, rfl⟩ := Option.map_eq_some_iff.mp h
    rw [leavesOfEntries, List.map_append, List.map_map,
      eq_leaves_of_flatten (below name key) v hfront,
      eq_leaves_of_flattenEntries name entries hback]
    simp [Function.comp_def, entryBelow, textOf_eq hkey]

end

/-- Flattening gives the leaves. -/
theorem flatten_eq_some_iff :
    flatten name v = some found ↔ ¬ Unfit v ∧ found = (leaves v).map (entryBelow name) := by
  rw [← flatten_eq_none_iff name]
  cases h : flatten name v with
  | none => simp
  | some found' => simp [eq_leaves_of_flatten name v h, eq_comm]

/-! ### Names -/

/-- No key of the outermost mapping is empty. -/
def Filled : Value → Prop
  | .mapping entries => ∀ e ∈ entries, scalar? e.1 ≠ some ""
  | _ => True

theorem below_of_ne (h : name ≠ "") (key : String) : below name key = name ++ "." ++ key :=
  if_neg (by simpa using h)

theorem below_ne (h : name ≠ "" ∨ key ≠ "") : below name key ≠ "" := by
  by_cases hname : name = ""
  · simpa [below, hname] using h
  · rw [below_of_ne hname]
    simp

/-- Names below a name that is not empty can be put together first. -/
theorem below_below (h : below name key ≠ "") (inner : String) :
    below (below name key) inner = below name (key ++ "." ++ inner) := by
  rw [below_of_ne h]
  by_cases hname : name = ""
  · simp [below, hname]
  · simp only [below_of_ne hname, String.append_assoc]

/-- Unless the name of a mapping and one of its keys are empty, no part of it has an empty name. -/
theorem below_key_ne (h : name ≠ "" ∨ Filled (.mapping entries)) (hmem : (k, v) ∈ entries)
    (hk : scalar? k = some key) : below name key ≠ "" :=
  below_ne (h.imp_right fun hfilled hkey => hfilled (k, v) hmem (hkey ▸ hk))

theorem foldl_below (h : name ≠ "") (keys : List String) :
    keys.foldl below name = Text.joinWith "." (name :: keys) := by
  induction keys generalizing name with
  | nil => rfl
  | cons key keys ih =>
    rw [List.foldl_cons, ih (below_ne (.inl h)), below_of_ne h]
    cases keys <;> simp [Text.joinWith, String.append_assoc]

/-- Only the outermost key of a path has to have a text. -/
theorem foldl_below_cons (h : key ≠ "") (keys : List String) :
    (key :: keys).foldl below "" = Text.joinWith "." (key :: keys) :=
  foldl_below h keys

/-! ### Keys with dots -/

/-- The second entry has the value of the first, and a key with one more part in front. -/
def Dotted (key : String) (e e' : Value × Value) : Prop :=
  e'.2 = e.2 ∧ ∃ inner, scalar? e.1 = some inner ∧ scalar? e'.1 = some (key ++ "." ++ inner)

/-- In one place of a tree, a nested mapping is replaced by its entries with dotted keys. -/
inductive Unnests : Value → Value → Prop
  /-- A mapping in the outermost mapping. -/
  | here {k : Value} {key : String} {before inner dotted after : List (Value × Value)}
    (hk : scalar? k = some key) (h : List.Forall₂ (Dotted key) inner dotted) :
    Unnests (.mapping (before ++ (k, .mapping inner) :: after))
      (.mapping (before ++ dotted ++ after))
  /-- A mapping in a value. -/
  | value {k v v' : Value} {before after : List (Value × Value)} (h : Unnests v v') :
    Unnests (.mapping (before ++ (k, v) :: after)) (.mapping (before ++ (k, v') :: after))
  /-- A mapping in a key. -/
  | key {k k' v : Value} {before after : List (Value × Value)} (h : Unnests k k') :
    Unnests (.mapping (before ++ (k, v) :: after)) (.mapping (before ++ (k', v) :: after))
  /-- A mapping in an item. -/
  | item {v v' : Value} {before after : List Value} (h : Unnests v v') :
    Unnests (.sequence (before ++ v :: after)) (.sequence (before ++ v' :: after))
  /-- A mapping in what has a tag. -/
  | tagged {tag : String} {v v' : Value} (h : Unnests v v') :
    Unnests (.tagged tag v) (.tagged tag v')

theorem Unnests.scalar?_eq (h : Unnests v v') : scalar? v = none ∧ scalar? v' = none := by
  cases h <;> exact ⟨rfl, rfl⟩

theorem flattenEntries_append (name : String) (before after : List (Value × Value)) :
    flattenEntries name (before ++ after) = (flattenEntries name before).bind fun front =>
      (flattenEntries name after).map (front ++ ·) := by
  induction before with
  | nil => simp [flattenEntries]
  | cons e before ih =>
    obtain ⟨k, v⟩ := e
    rw [List.cons_append, flattenEntries_cons, flattenEntries_cons, ih, Option.bind_assoc]
    refine Option.bind_congr fun key _ => ?_
    rw [Option.bind_assoc]
    refine Option.bind_congr fun front _ => ?_
    cases flattenEntries name before <;> cases flattenEntries name after <;> simp

theorem flattenEntries_dotted {inner dotted : List (Value × Value)} (hname : below name key ≠ "")
    (h : List.Forall₂ (Dotted key) inner dotted) :
    flattenEntries name dotted = flattenEntries (below name key) inner := by
  induction h with
  | nil => simp [flattenEntries]
  | @cons e e' inner dotted he _ ih =>
    obtain ⟨k, v⟩ := e
    obtain ⟨k', v'⟩ := e'
    obtain ⟨rfl, text, hk, hk'⟩ := he
    rw [flattenEntries_cons, flattenEntries_cons, hk, hk', ih, Option.bind_some, Option.bind_some,
      below_below hname]

/-- A nested mapping can be replaced by entries with dotted keys. -/
theorem flatten_of_unnests (h : Unnests v v') (hname : name ≠ "" ∨ Filled v) :
    flatten name v = flatten name v' := by
  induction h generalizing name with
  | @here k key before inner dotted after hk h =>
    have hkey := below_key_ne hname List.mem_append_cons_self hk
    rw [flatten, flatten, List.append_assoc, flattenEntries_append, flattenEntries_append,
      flattenEntries_append name dotted, flattenEntries_cons, hk, Option.bind_some, flatten,
      flattenEntries_dotted hkey h]
  | @value k v v' before after h ih =>
    rw [flatten, flatten, flattenEntries_append, flattenEntries_append, flattenEntries_cons,
      flattenEntries_cons]
    cases hk : scalar? k with
    | none => rfl
    | some key =>
      have hkey := below_key_ne hname List.mem_append_cons_self hk
      rw [Option.bind_some, Option.bind_some, ih (.inl hkey)]
  | key h =>
    rw [flatten, flatten, flattenEntries_append, flattenEntries_append, flattenEntries_cons,
      flattenEntries_cons, h.scalar?_eq.1, h.scalar?_eq.2]
  | item h =>
    obtain ⟨hv, hv'⟩ := h.scalar?_eq
    rw [flatten, flatten,
      mapM_scalar?_eq_none_iff.mpr ⟨_, List.mem_append_cons_self, scalar?_eq_none_iff.mp hv⟩,
      mapM_scalar?_eq_none_iff.mpr ⟨_, List.mem_append_cons_self, scalar?_eq_none_iff.mp hv'⟩]
  | tagged => simp [flatten, scalar?]

theorem Dotted.ne_empty {e e' : Value × Value} (h : Dotted key e e') : scalar? e'.1 ≠ some "" := by
  obtain ⟨-, inner, -, hk'⟩ := h
  simp [hk']

/-- Keys with dots are not empty. -/
theorem Filled.unnests (hfilled : Filled v) (h : Unnests v v') : Filled v' := by
  cases h with
  | item | tagged => trivial
  | @here k key before inner dotted after hk h =>
    simp only [Filled, List.forall_mem_append, List.forall_mem_cons] at hfilled ⊢
    refine ⟨⟨hfilled.1, ?_⟩, hfilled.2.2⟩
    induction h with
    | nil => exact nofun
    | cons he _ ih => exact List.forall_mem_cons.mpr ⟨he.ne_empty, ih⟩
  | value =>
    simp only [Filled, List.forall_mem_append, List.forall_mem_cons] at hfilled ⊢
    exact hfilled
  | key h =>
    simp only [Filled, List.forall_mem_append, List.forall_mem_cons] at hfilled ⊢
    exact ⟨hfilled.1, by simp [h.scalar?_eq.2], hfilled.2.2⟩

/-! ### Files -/

theorem entriesOf_mapping (path : String) (entries : List (Value × Value)) :
    entriesOf path (.mapping entries) = match flatten "" (.mapping entries) with
      | some found => .ok found
      | none => .error (.siteSyntax path 0) := by
  cases h : flattenEntries "" entries <;> simp only [flatten, entriesOf, h]

theorem entriesOf_of_unnests (path : String) (h : Unnests v v') (hfilled : Filled v) :
    entriesOf path v = entriesOf path v' := by
  have hflatten : flatten "" v = flatten "" v' := flatten_of_unnests h (.inr hfilled)
  cases h with
  | item | tagged => rfl
  | here | value | key => rw [entriesOf_mapping, entriesOf_mapping, hflatten]

/-- The outermost key on the way to a leaf is a key of the tree. -/
theorem exists_mem_of_mem_leaves {leaf : List Value × Value} (h : leaf ∈ leavesOfEntries entries) :
    ∃ e ∈ entries, ∃ keys, leaf.1 = e.1 :: keys := by
  induction entries with
  | nil => simp [leavesOfEntries] at h
  | cons e entries ih =>
    obtain ⟨k, v⟩ := e
    rw [leavesOfEntries, List.mem_append, List.mem_map] at h
    rcases h with ⟨inner, -, rfl⟩ | h
    · exact ⟨(k, v), List.mem_cons_self, inner.1, rfl⟩
    · obtain ⟨e, he, hkeys⟩ := ih h
      exact ⟨e, List.mem_cons_of_mem _ he, hkeys⟩

/-- The names of the leaves are paths, since none of their outermost keys is empty. -/
theorem entryBelow_eq_entry (hfilled : Filled (.mapping entries))
    (hfit : ¬ Unfit (.mapping entries)) {leaf : List Value × Value}
    (h : leaf ∈ leavesOfEntries entries) : entryBelow "" leaf = entry leaf := by
  obtain ⟨⟨k, v⟩, he, keys, hkeys⟩ := exists_mem_of_mem_leaves h
  have hk : scalar? k ≠ none := fun hnone =>
    hfit (unfit_mapping_iff.mpr ⟨(k, v), he, .inl (scalar?_eq_none_iff.mp hnone)⟩)
  obtain ⟨key, hkey⟩ := Option.ne_none_iff_exists'.mp hk
  have hne : key ≠ "" := fun hnil => hfilled (k, v) he (hnil ▸ hkey)
  rw [entryBelow, entry, hkeys, List.map_cons, textOf_eq hkey, foldl_below_cons hne]

theorem flatten_mapping_eq_some_iff (hfilled : Filled (.mapping entries)) :
    flatten "" (.mapping entries) = some found ↔
      ¬ Unfit (.mapping entries) ∧ found = (leaves (.mapping entries)).map entry := by
  rw [flatten_eq_some_iff]
  refine and_congr_right fun hfit => ?_
  have hentries : (leavesOfEntries entries).map (entryBelow "") =
      (leavesOfEntries entries).map entry :=
    List.map_congr_left fun leaf hleaf => entryBelow_eq_entry hfilled hfit hleaf
  rw [leaves, hentries]

/-- **Nesting means dots.** Reading the tree of a file fails exactly if a part of it is flawed: a
mapping with a key that is no scalar, a sequence with an item that is no scalar, or a tag. Otherwise
the leaves of the tree are the entries, in the order of the document, and their names are the keys
on the way to them with dots between them. Nested mappings can be replaced by entries with dotted
keys, again and again, and the file still says the same. -/
theorem nesting_means_dots (path : String) (entries : List (Value × Value))
    (hkeys : ∀ e ∈ entries, scalar? e.1 ≠ some "") :
    (∀ error, entriesOf path (.mapping entries) = .error error ↔
      error = .siteSyntax path 0 ∧ Unfit (.mapping entries)) ∧
    (∀ found, entriesOf path (.mapping entries) = .ok found ↔
      ¬ Unfit (.mapping entries) ∧ found = (leaves (.mapping entries)).map entry) ∧
    ∀ v, Relation.ReflTransGen Unnests (.mapping entries) v →
      entriesOf path v = entriesOf path (.mapping entries) := by
  have hfilled : Filled (.mapping entries) := hkeys
  refine ⟨fun error => ?_, fun found => ?_, fun v hv => ?_⟩
  · rw [entriesOf_mapping, ← flatten_eq_none_iff ""]
    cases flatten "" (.mapping entries) <;> simp [eq_comm]
  · rw [entriesOf_mapping, ← flatten_mapping_eq_some_iff hfilled]
    cases flatten "" (.mapping entries) <;> simp
  · -- dotted keys are not empty either, so that the next step starts from a tree of the same kind
    have hsame : entriesOf path v = entriesOf path (.mapping entries) ∧ Filled v := by
      induction hv with
      | refl => exact ⟨rfl, hfilled⟩
      | tail _ hstep ih =>
        obtain ⟨hread, hfilled'⟩ := ih
        exact ⟨(entriesOf_of_unnests path hstep hfilled').symm.trans hread,
          hfilled'.unnests hstep⟩
    exact hsame.1

theorem nesting_means_dots_list :
    (∀ e ∈ [(Value.text "q", Value.mapping [(.text "a", .sequence [.text "x", .bool true])])],
      scalar? e.1 ≠ some "") ∧
    entriesOf "p"
        (.mapping [(.text "q", .mapping [(.text "a", .sequence [.text "x", .bool true])])]) =
      .ok [("q.a", "x,true")] ∧
    entriesOf "p" (.mapping [(.text "q.a", .sequence [.text "x", .bool true])]) =
      entriesOf "p"
        (.mapping [(.text "q", .mapping [(.text "a", .sequence [.text "x", .bool true])])]) := by
  have hdotted : List.Forall₂ (Dotted "q") [(.text "a", .sequence [.text "x", .bool true])]
      [(.text "q.a", .sequence [.text "x", .bool true])] :=
    .cons ⟨rfl, "a", rfl, rfl⟩ .nil
  obtain ⟨-, -, hsame⟩ := nesting_means_dots "p"
    [(.text "q", .mapping [(.text "a", .sequence [.text "x", .bool true])])] (by decide)
  exact ⟨by decide, rfl, hsame _ (.single (@Unnests.here (.text "q") _ [] _ _ [] rfl hdotted))⟩

end RaftAdmin.Nested
