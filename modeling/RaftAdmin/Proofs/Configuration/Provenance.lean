import RaftAdmin.Proofs.Configuration.Observation

/-!
# Whatever a layer supplies can be referenced

Values stand in the store and the keys of names in the registry, and a reference is only followed to
a name that the registry finds. Every operation keeps the two in step: a merge registers the names
of its entries, and nobody comes by a key that the registry does not list.

## The model

A run is a list of calls made one after the other, reads included. A key is in hand if it is
declared or an earlier call gave it out, and only keys in hand are used to set values (`InHand`);
whatever else is done with keys, they may come from anywhere. A key is told by its name alone.

## What is proved

* `handed_subset` — the registry lists the names of all keys that a call gives out.
* `names_subset_after` — a name that is listed stays listed.
* `Covered.run` — so the names with a value of their own are listed, after any run.
* `Getter.get_eq_of_invalidKey` — whatever a value is read as, an invalid key is one that replacing
  its references met.
* **`referable_run`** — after any run a name with a value of its own is known, and no read fails
  with it, nor with a declared name, as an invalid key.
-/

namespace RaftAdmin

/-! ### The names that a registry lists -/

namespace Registry

variable {r : Registry} {n : String} {k : PropertyKey}

/-- The names of the declared keys and of the other known keys. -/
def names (r : Registry) : List String := (PropertyKey.declared ++ r.known).map PropertyKey.name

theorem declared_subset_names (r : Registry) :
    PropertyKey.declared.map PropertyKey.name ⊆ r.names := by
  rw [names, List.map_append]
  exact List.subset_append_left _ _

theorem mem_names_of_declared? (r : Registry) (h : declared? n = some k) : n ∈ r.names := by
  refine r.declared_subset_names (List.mem_map.mpr ⟨k, List.mem_of_find?_eq_some h, ?_⟩)
  simpa using List.find?_some h

theorem mem_names_of_known? (h : r.known? n = some k) : n ∈ r.names := by
  refine List.mem_map.mpr ⟨k, List.mem_append_right _ (List.mem_of_find?_eq_some h), ?_⟩
  simpa using List.find?_some h

theorem map_name_keys_subset (r : Registry) : r.keys.map PropertyKey.name ⊆ r.names :=
  List.map_subset _ (List.append_subset.mpr
    ⟨List.subset_append_left _ _,
      List.Subset.trans (List.mergeSort_perm _ _).subset (List.subset_append_right _ _)⟩)

/-- A listed name finds a key, which is among the known ones. -/
theorem exists_find?_of_mem_names (h : n ∈ r.names) : ∃ k ∈ r.keys, r.find? n = some k := by
  rw [names, List.map_append, List.mem_append] at h
  rw [keys]
  cases hdeclared : declared? n with
  | some k =>
    refine ⟨k, List.mem_append_left _ (List.mem_of_find?_eq_some hdeclared), ?_⟩
    rw [find?, hdeclared]
  | none =>
    have hunlisted : n ∉ PropertyKey.declared.map PropertyKey.name := by
      simpa [declared?, List.find?_eq_none] using hdeclared
    obtain ⟨k', hk', rfl⟩ := List.mem_map.mp (h.resolve_left hunlisted)
    obtain ⟨k, hknown⟩ : ∃ k, r.known? k'.name = some k := by
      rw [← Option.isSome_iff_exists, known?, List.find?_isSome]
      exact ⟨k', hk', by simp⟩
    refine ⟨k, List.mem_append_right _ ?_, ?_⟩
    · exact List.mem_mergeSort.mpr (List.mem_of_find?_eq_some hknown)
    · rw [find?, hdeclared, hknown]

/-! #### What is listed stays listed -/

theorem names_subset_insert (r : Registry) (k : PropertyKey) : r.names ⊆ (r.insert k).names :=
  List.map_subset _ (List.append_subset.mpr
    ⟨List.subset_append_left _ _,
      List.Subset.trans (List.subset_cons_self k r.known) (List.subset_append_right _ _)⟩)

theorem names_subset_note (r : Registry) (n : String) : r.names ⊆ (r.note n).names := by
  unfold note
  split
  · exact r.names_subset_insert _
  · exact List.Subset.refl _

theorem names_subset_noteAll (r : Registry) (ns : List String) :
    r.names ⊆ (r.noteAll ns).names := by
  induction ns generalizing r with
  | nil => exact List.Subset.refl _
  | cons n ns ih => exact List.Subset.trans (r.names_subset_note n) (ih (r.note n))

theorem names_subset_format (r : Registry) (t : KeyTemplate) (service : String) :
    r.names ⊆ (r.format t service).2.names := by
  simp only [format]
  split
  · exact List.Subset.refl _
  · exact r.names_subset_insert _

theorem names_subset_register (r : Registry) (n : String) : r.names ⊆ (r.register n).2.names := by
  unfold register
  split
  · exact r.names_subset_note n
  · exact r.names_subset_insert _

/-! #### What is asked for is listed -/

theorem mem_names_insert (r : Registry) (k : PropertyKey) : k.name ∈ (r.insert k).names :=
  List.mem_map_of_mem (List.mem_append_right _ List.mem_cons_self)

/-- A name that finds a key is listed once it was looked up. -/
theorem mem_names_note (h : r.find? n = some k) : n ∈ (r.note n).names := by
  cases hdeclared : declared? n with
  | some k' => exact mem_names_of_declared? _ hdeclared
  | none =>
    cases hknown : r.known? n with
    | some k' => exact r.names_subset_note n (mem_names_of_known? hknown)
    | none =>
      have htemplated : templated? n = some k := by simpa [find?, hdeclared, hknown] using h
      have hnote : r.note n = r.insert k := by simp [note, hdeclared, hknown, htemplated]
      rw [hnote, ← name_of_templated? htemplated]
      exact r.mem_names_insert k

/-- The key of a family has the name that was made for it. -/
theorem name_of_format (r : Registry) (t : KeyTemplate) (service : String) :
    (r.format t service).1.name = t.keyName service := by
  simp only [format]
  split
  · rename_i k hknown
    simpa using List.find?_some hknown
  · rfl

theorem mem_names_format (r : Registry) (t : KeyTemplate) (service : String) :
    t.keyName service ∈ (r.format t service).2.names := by
  simp only [format]
  split
  · rename_i k hknown
    exact mem_names_of_known? hknown
  · exact r.mem_names_insert (t.instantiate (t.keyName service))

theorem mem_names_register (r : Registry) (n : String) : n ∈ (r.register n).2.names := by
  unfold register
  split
  · rename_i k hfind
    exact mem_names_note hfind
  · exact r.mem_names_insert (.custom n)

end Registry

theorem Layer.names_erase_subset (l : Layer) (n : String) : (l.erase n).names ⊆ l.names := by
  rw [names_erase]
  exact List.filter_subset_self l.names

theorem Layer.names_insert_subset (l : Layer) (n v : String) :
    (l.insert n v).names ⊆ n :: l.names :=
  List.cons_subset_cons n (l.names_erase_subset n)

namespace Configuration

variable {c : Configuration} {k : PropertyKey} {n v : String} {names : List String}

/-! ### Names with a value -/

/-- The names with a value of their own are listed by the registry. -/
def Covered (c : Configuration) : Prop := c.userNames ⊆ c.registry.names

theorem covered_iff : c.Covered ↔
    c.store.runtime.names ⊆ c.registry.names ∧ c.store.site.names ⊆ c.registry.names := by
  have hlayers : c.Covered ↔ ∀ n, n ∈ c.store.runtime.names ∨ n ∈ c.store.site.names →
      n ∈ c.registry.names := forall_congr' fun n => imp_congr_left Store.mem_userNames
  rw [hlayers]
  exact ⟨fun h => ⟨fun n hn => h n (.inl hn), fun n hn => h n (.inr hn)⟩,
    fun h n hn => hn.elim (fun hn => h.1 hn) fun hn => h.2 hn⟩

theorem covered_empty : Covered .empty :=
  covered_iff.mpr ⟨List.nil_subset _, List.nil_subset _⟩

theorem names_subset_mergeEntry (c : Configuration) (e : String × String) :
    c.registry.names ⊆ (c.mergeEntry e).registry.names := by
  unfold mergeEntry
  dsimp only
  split
  · exact List.Subset.refl _
  · exact c.registry.names_subset_register _

theorem Covered.mergeEntry (h : c.Covered) (e : String × String) : (c.mergeEntry e).Covered := by
  have hkept := c.names_subset_mergeEntry e
  rw [covered_iff] at h ⊢
  revert hkept
  unfold Configuration.mergeEntry
  dsimp only
  split
  · exact fun _ => h
  · intro hkept
    refine ⟨List.Subset.trans h.1 hkept, List.Subset.trans (Layer.names_insert_subset _ _ _) ?_⟩
    rw [Registry.name_of_register]
    exact List.cons_subset.mpr
      ⟨c.registry.mem_names_register _, List.Subset.trans h.2 hkept⟩

theorem names_subset_merge (c : Configuration) (entries : List (String × String)) :
    c.registry.names ⊆ (c.merge entries).registry.names := by
  induction entries generalizing c with
  | nil => exact List.Subset.refl _
  | cons e entries ih =>
    rw [merge_cons]
    exact List.Subset.trans (c.names_subset_mergeEntry e) (ih _)

theorem Covered.merge (h : c.Covered) (entries : List (String × String)) :
    (c.merge entries).Covered := by
  induction entries generalizing c with
  | nil => exact h
  | cons e entries ih =>
    rw [merge_cons]
    exact ih (h.mergeEntry e)

theorem Covered.unset (h : c.Covered) (k : PropertyKey) : (c.unset k).Covered := by
  rw [covered_iff] at h ⊢
  exact ⟨List.Subset.trans (Layer.names_erase_subset _ _) h.1,
    List.Subset.trans (Layer.names_erase_subset _ _) h.2⟩

/-- A value that is set is covered if the key is. -/
theorem Covered.set (h : c.Covered) (hk : k.name ∈ c.registry.names) (v : String) :
    ((Change.set k v).apply c).Covered := by
  by_cases hv : v = ""
  · subst hv
    exact h
  · rw [Change.apply_set c k hv]
    rw [covered_iff] at h ⊢
    exact ⟨List.Subset.trans (Layer.names_insert_subset _ _ _) (List.cons_subset.mpr ⟨hk, h.1⟩),
      h.2⟩

/-! ### Calls -/

namespace Call

/-- The names of the keys that a call gives out. -/
def handed (c : Configuration) : Call → List String
  | .key name => ((c.key? name).map PropertyKey.name).toList
  | .templateKey t service => [(c.templateKey t service).name]
  | .keys => c.keys.map PropertyKey.name
  | .userNames => c.userNames
  | _ => []

/-- The key that a call sets. -/
def setKey? : Call → Option PropertyKey
  | .change (.set k _) => some k
  | _ => none

end Call

theorem names_subset_change (x : Change) (c : Configuration) :
    c.registry.names ⊆ (x.apply c).registry.names := by
  cases x with
  | merge entries => exact c.names_subset_merge entries
  | unset k => exact List.Subset.refl _
  | set k v =>
    by_cases hv : v = ""
    · subst hv
      exact List.Subset.refl _
    · rw [Change.apply_set c k hv]
      exact List.Subset.refl _

/-- No call makes the registry forget a name. -/
theorem names_subset_after (x : Call) (c : Configuration) :
    c.registry.names ⊆ (x.after c).registry.names := by
  have hnote (ns) : c.registry.names ⊆ (c.note ns).registry.names :=
    c.registry.names_subset_noteAll ns
  cases x with
  | change x => exact names_subset_change x c
  | key name => exact hnote _
  | templateKey t service => exact c.registry.names_subset_format t service
  | get g k => exact hnote _
  | isSet k => exact hnote _
  | isSetByUser k =>
    rw [Call.after]
    split
    · exact hnote _
    · exact List.Subset.refl _
  | _ => exact List.Subset.refl _

/-- The registry lists the names of all keys that a call gives out. -/
theorem handed_subset (h : c.Covered) (x : Call) : x.handed c ⊆ (x.after c).registry.names := by
  cases x with
  | key name =>
    intro n hn
    simp only [Call.handed, Option.mem_toList, Option.map_eq_some_iff] at hn
    obtain ⟨k, hkey, rfl⟩ := hn
    obtain rfl := Registry.name_of_find? hkey
    exact Registry.mem_names_note hkey
  | templateKey t service =>
    rw [Call.handed, Configuration.templateKey, Registry.name_of_format]
    exact List.cons_subset.mpr ⟨c.registry.mem_names_format t service, List.nil_subset _⟩
  | keys => exact c.registry.map_name_keys_subset
  | userNames => exact h
  | _ => exact List.nil_subset _

/-- The names with a value stay covered, if the key of a value that is set is. -/
theorem Covered.after (h : c.Covered) {x : Call}
    (hset : ∀ k ∈ x.setKey?, k.name ∈ c.registry.names) : (x.after c).Covered := by
  have hnote (ns) : (c.note ns).Covered :=
    List.Subset.trans h (c.registry.names_subset_noteAll ns)
  cases x with
  | change x =>
    cases x with
    | merge entries => exact h.merge entries
    | unset k => exact h.unset k
    | set k v => exact h.set (hset k rfl) v
  | key name => exact hnote _
  | templateKey t service => exact List.Subset.trans h (c.registry.names_subset_format t service)
  | get g k => exact hnote _
  | isSet k => exact hnote _
  | isSetByUser k =>
    rw [Call.after]
    split
    · exact hnote _
    · exact h
  | _ => exact h

/-! ### Runs -/

/-- The configuration after a run. -/
def run (c : Configuration) (xs : List Call) : Configuration :=
  xs.foldl (fun c x => x.after c) c

/-- Values are only set with keys whose names are among `names` or were given out before. -/
def InHand (names : List String) : Configuration → List Call → Prop
  | _, [] => True
  | c, x :: xs => (∀ k ∈ x.setKey?, k.name ∈ names) ∧ InHand (names ++ x.handed c) (x.after c) xs

/-- A run with keys in hand leaves the names with a value covered. -/
theorem Covered.run (h : c.Covered) (hnames : names ⊆ c.registry.names) {xs : List Call}
    (hxs : InHand names c xs) : (c.run xs).Covered := by
  induction xs generalizing c names with
  | nil => exact h
  | cons x xs ih =>
    obtain ⟨hset, hrest⟩ := hxs
    have hafter := h.after fun k hk => hnames (hset k hk)
    -- the names in hand stay listed, and those that the call gives out come to be
    exact ih hafter (List.append_subset.mpr
      ⟨List.Subset.trans hnames (names_subset_after x c), handed_subset h x⟩) hrest

/-! ### Reads that fail -/

/-- Whatever a value is read as, an invalid key is one that replacing the references met. -/
theorem Getter.get_eq_of_invalidKey (g : Getter) (h : g.read c k = .error (.invalidKey n)) :
    c.get k = .error (.invalidKey n) := by
  refine (g.error_cases h).resolve_right ?_
  rintro ⟨value, kind, ⟨⟩⟩

/-! ### References -/

/-- Names with a value can be referenced, and so can declared names. -/
structure Referable (c : Configuration) : Prop where
  /-- A name with a value of its own has a known key, and this key has a value. -/
  known : ∀ n ∈ c.userNames, ∃ k ∈ c.keys, k.name = n ∧ c.key? n = some k ∧
    (c.store.get? k).isSome
  /-- No read fails with such a name, or a declared one, as an invalid key. -/
  valid : ∀ n, n ∈ c.userNames ∨ n ∈ PropertyKey.declared.map PropertyKey.name →
    ∀ (g : Getter) (k : PropertyKey), g.read c k ≠ .error (.invalidKey n)

theorem Covered.referable (h : c.Covered) : Referable c where
  known n hn := by
    obtain ⟨k, hmem, hkey⟩ := Registry.exists_find?_of_mem_names (h hn)
    obtain rfl := Registry.name_of_find? hkey
    refine ⟨k, hmem, rfl, hkey, ?_⟩
    rcases Store.mem_userNames_iff.mp hn with hsource | hsource
    · obtain ⟨e, he, -⟩ := Option.map_eq_some_iff.mp hsource
      rw [Store.get?, he]
      rfl
    · obtain ⟨e, he, -⟩ := Option.map_eq_some_iff.mp hsource
      rw [Store.get?, he]
      rfl
  valid n hn g k hread := by
    have hlisted : n ∈ c.registry.names :=
      hn.elim (fun hn => h hn) fun hn => c.registry.declared_subset_names hn
    obtain ⟨k', -, hfind⟩ := Registry.exists_find?_of_mem_names hlisted
    have hnone := key?_of_invalidKey (g.get_eq_of_invalidKey hread)
    rw [key?, hfind] at hnone
    cases hnone

/-- **Whatever a layer supplies can be referenced.** After any run that sets values only with
declared keys and with keys it was given before, every name with a value of its own is known, and
no read fails with such a name or a declared one as an invalid key. -/
theorem referable_run (xs : List Call)
    (h : InHand (PropertyKey.declared.map PropertyKey.name) .empty xs) :
    Referable (Configuration.empty.run xs) :=
  (covered_empty.run (Registry.declared_subset_names _) h).referable

/-- A merged name is trimmed and looked up, and the peers of a service are set that a merged value
already refers to. -/
theorem referable_run_peers :
    let peers := KeyTemplate.servicePeers.instantiate "quorumsh.meta.peers"
    let xs : List Call :=
      [.change (.merge [(" port ", "1"), ("a", "h:$\x7b port \x7d,$\x7bquorumsh.meta.peers\x7d")]),
        .key "port", .change (.set (.custom "port") "2"),
        .templateKey .servicePeers "meta", .change (.set peers "h:3"),
        .change (.set .home "/srv"), .get .int (.custom "a"), .change (.unset (.custom "port"))]
    InHand (PropertyKey.declared.map PropertyKey.name) .empty xs ∧
      Referable (Configuration.empty.run xs) := by
  intro peers xs
  have hinHand : InHand (PropertyKey.declared.map PropertyKey.name) .empty xs := by
    simp only [xs, InHand, Call.setKey?, Call.handed]
    decide
  exact ⟨hinHand, referable_run xs hinHand⟩

end Configuration

end RaftAdmin
