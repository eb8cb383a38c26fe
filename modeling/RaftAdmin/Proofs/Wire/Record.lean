import RaftAdmin.Proofs.Json.RoundTrip
import RaftAdmin.Rpc.Wire

/-!
# Records that are written and read again

A record is written as an object with one member per field, of which those without a value are left
out. A field that was written is read with its value, and a field that was left out is missing.

## What is proved

* `toMembers?_ofMembers` — the members of an object that is written.
* `field_present`, `mapM_field` — each field has the value it was written with.
* `faithful_present` — a record is read again from its text if its values are.
* `items_map`, `optional_map` — arrays and optional fields are read again if their parts are.
* `exists_of_required`, `exists_of_optional`, `exists_of_items` — what a field was read as, some value
  was read as.
-/

namespace RaftAdmin.Wire

open Json (Value Faithful)

/-! ### The members of a record -/

/-- A field with the value it is written with, if it is written. -/
abbrev Row := String × Option Value

/-- The members that are written for fields. -/
def present (rows : List Row) : List (String × Value) :=
  rows.flatMap fun r => optionalMember r.1 r.2

variable {rows sub : List Row} {name other : String} {v? : Option Value}

theorem present_append : present (rows ++ sub) = present rows ++ present sub :=
  List.flatMap_append

theorem mem_present {m : String × Value} : m ∈ present rows ↔ (m.1, some m.2) ∈ rows := by
  simp only [present, List.mem_flatMap]
  constructor
  · rintro ⟨⟨name, v?⟩, hr, hm⟩
    cases v? with
    | none => cases hm
    | some v =>
      obtain rfl := List.mem_singleton.mp hm
      exact hr
  · exact fun hr => ⟨_, hr, List.mem_singleton_self _⟩

theorem toMembers?_ofMembers (ms : List (String × Value)) :
    (Value.ofMembers ms).toMembers? = some ms := by
  rw [Value.ofMembers, Value.toMembers?]
  induction ms with
  | nil => rfl
  | cons m ms ih => simp_all

theorem filter_present_of_notMem (h : name ∉ rows.map Prod.fst) :
    (present rows).filter (fun m => m.1 = name) = [] := by
  refine List.filter_eq_nil_iff.mpr fun m hm => ?_
  have hrow : m.1 ∈ rows.map Prod.fst := List.mem_map_of_mem (mem_present.mp hm)
  simp only [decide_eq_true_eq]
  rintro rfl
  exact h hrow

theorem filter_optionalMember (hname : name ≠ other) :
    (optionalMember other v?).filter (fun m => m.1 = name) = [] := by
  cases v? <;> simp [optionalMember, hname.symm]

/-- Of the members of a record, those of one field are what was written for it. -/
theorem filter_present (hd : (rows.map Prod.fst).Nodup) (h : (name, v?) ∈ rows) :
    (present rows).filter (fun m => m.1 = name) = optionalMember name v? := by
  induction rows with
  | nil => cases h
  | cons r rows ih =>
    obtain ⟨hnew, hd⟩ := List.nodup_cons.mp hd
    have hsplit : present (r :: rows) = optionalMember r.1 r.2 ++ present rows := rfl
    rw [hsplit, List.filter_append]
    rcases List.mem_cons.mp h with rfl | h
    · have hself : (optionalMember name v?).filter (fun m => m.1 = name)
          = optionalMember name v? := by cases v? <;> simp [optionalMember]
      rw [hself, filter_present_of_notMem hnew, List.append_nil]
    · have hname : name ≠ r.1 := by
        rintro rfl
        exact hnew (List.mem_map.mpr ⟨_, h, rfl⟩)
      rw [filter_optionalMember hname, ih hd h, List.nil_append]

/-- A field is read with the value that it was written with. -/
theorem field_present (hd : (rows.map Prod.fst).Nodup) (h : (name, v?) ∈ rows) :
    field (present rows) name = some v? := by
  rw [field, filter_present hd h]
  cases v? <;> rfl

/-- The fields of a record are read with the values that they were written with. -/
theorem mapM_field (hd : (rows.map Prod.fst).Nodup) (h : sub ⊆ rows) :
    (sub.map Prod.fst).mapM (field (present rows)) = some (sub.map Prod.snd) := by
  induction sub with
  | nil => rfl
  | cons r sub ih =>
    obtain ⟨hr, hsub⟩ := List.cons_subset.mp h
    have hfield : field (present rows) r.1 = some r.2 := field_present hd hr
    simp [hfield, ih hsub]

/-- The fields of a record are read from the object that it is written as. -/
theorem fields_present (rows : List Row) (hd : (rows.map Prod.fst).Nodup) :
    fields (rows.map Prod.fst) (.ofMembers (present rows)) = some (rows.map Prod.snd) := by
  have hmembers := toMembers?_ofMembers (present rows)
  rw [Value.ofMembers] at hmembers ⊢
  simp only [fields, hmembers]
  exact mapM_field hd (List.Subset.refl rows)

/-- A record is read again from its text if its values are. -/
theorem faithful_present (rows : List Row) (h : ∀ r ∈ rows, ∀ v, r.2 = some v → Faithful v) :
    Faithful (.ofMembers (present rows)) :=
  .object fun m hm => h _ (mem_present.mp hm) m.2 rfl

/-! ### Arrays and optional fields -/

theorem faithful_map {α : Type} {write : α → Value} (h : ∀ x, Faithful (write x)) (xs : List α) :
    Faithful (.array (xs.map write)) :=
  .array fun v hv => by
    obtain ⟨x, -, rfl⟩ := List.mem_map.mp hv
    exact h x

variable {α : Type} {read : Value → Option α} {write : α → Value}

theorem items_map {xs : List α} (h : ∀ x ∈ xs, read (write x) = some x) :
    items read (.array (xs.map write)) = some xs := by
  simp only [items, Value.toItems?]
  induction xs with
  | nil => rfl
  | cons x xs ih =>
    obtain ⟨hx, hxs⟩ := List.forall_mem_cons.mp h
    simp [hx, ih hxs]

theorem optional_map {x? : Option α} (h : ∀ x, x? = some x → read (write x) = some x)
    (hnull : ∀ x, write x ≠ .null) : optional read (x?.map write) = some x? := by
  cases x? with
  | none => rfl
  | some x =>
    have hread : optional read (some (write x)) = (read (write x)).map some := by
      unfold optional
      split
      · next heq => exact absurd (Option.some.inj heq) (hnull x)
      · next heq => rw [Option.some.inj heq]
      · next heq => cases heq
    rw [Option.map_some, hread, h x rfl, Option.map_some]

/-! ### Parts of what was read -/

variable {v : Value}

theorem exists_of_required {x : α} (h : required read v? = some x) : ∃ w, read w = some x := by
  cases v? with
  | none => cases h
  | some w => exact ⟨w, h⟩

theorem exists_of_optional {x : α} (h : optional read v? = some (some x)) :
    ∃ w, read w = some x := by
  unfold optional at h
  split at h
  · cases h
  · next w _ =>
    obtain ⟨y, hy, heq⟩ := Option.map_eq_some_iff.mp h
    exact ⟨w, hy.trans heq⟩
  · cases h

theorem exists_of_mapM {vs : List Value} {xs : List α} (h : vs.mapM read = some xs) {x : α}
    (hx : x ∈ xs) : ∃ w, read w = some x := by
  induction vs generalizing xs with
  | nil =>
    obtain rfl := Option.some.inj h
    cases hx
  | cons v vs ih =>
    rw [List.mapM_cons] at h
    obtain ⟨y, hy, h⟩ := Option.bind_eq_some_iff.mp h
    obtain ⟨ys, hys, h⟩ := Option.bind_eq_some_iff.mp h
    obtain rfl := Option.some.inj h
    rcases List.mem_cons.mp hx with rfl | hx
    · exact ⟨v, hy⟩
    · exact ih hys hx

theorem exists_of_items {xs : List α} (h : items read v = some xs) {x : α} (hx : x ∈ xs) :
    ∃ w, read w = some x := by
  unfold items at h
  split at h
  · exact exists_of_mapM h hx
  · cases h

theorem exists_of_withDefault_items {xs : List α}
    (h : withDefault [] (items read) v? = some xs) {x : α} (hx : x ∈ xs) :
    ∃ w, read w = some x := by
  cases v? with
  | none =>
    obtain rfl := Option.some.inj h
    cases hx
  | some w => exact exists_of_items h hx

end RaftAdmin.Wire
