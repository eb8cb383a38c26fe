import RaftAdmin.Proofs.Configuration.Provenance
import RaftAdmin.Proofs.Text.Bytes

/-!
# A name keeps its key

A registry comes by keys in three ways: it makes the key of a family when its name is looked up, and
also when it is asked for by a service id, and it makes a key of its own for a name that nothing
else explains. Whichever comes first settles the key of a name for good.

## The model

A run is a list of requests to an empty registry, made one after the other, and an answer is a
request with the reply to it. An answer tells of a key if it gives out this key; that a name is
valid tells of any key, since it only says that there is one.

## What is proved

* `declared?_keyName` — no key of a family has the name of a declared key.
* `find?_after` — no request makes a name find another key, or none.
* `tells_of_find?`, `exists_find?_of_tells` — an answer tells of the key that its name finds, and
  what it tells of is found from then on.
* `mem_names_after_iff` — a request makes its own name known, if there is a key, and no other name.
* **`keys_stable`** — what the answers of a run tell, and what is listed after it.
-/

namespace RaftAdmin

/-- No key of a family has the name of a declared key. -/
theorem Registry.declared?_keyName {t : KeyTemplate} (ht : t ∈ KeyTemplate.all) (service : String) :
    declared? (t.keyName service) = none := by
  have hback : ∀ t ∈ KeyTemplate.all, ∀ k ∈ PropertyKey.declared,
      Text.dropBack? t.back.toList k.name.toList = none := by decide
  refine List.find?_eq_none.mpr fun k hk hname => ?_
  have hdrop := hback t ht k hk
  have htext : k.name.toList = (t.front.toList ++ service.toList) ++ t.back.toList := by
    simp [of_decide_eq_true hname, KeyTemplate.keyName]
  rw [htext, Text.dropBack?_append] at hdrop
  cases hdrop

namespace Registry

/-! ### Requests -/

/-- A request to a registry. -/
inductive Request where
  /-- The key of a name is looked up. -/
  | lookup (name : String)
  /-- It is asked whether a name may be referenced. -/
  | isValid (name : String)
  /-- The key of a family for a service id is asked for. -/
  | format (t : KeyTemplate) (ht : t ∈ KeyTemplate.all) (service : String)
  /-- The key of a name is asked for, which is registered if there is none. -/
  | register (name : String)

namespace Request

/-- The name that a request is about. -/
def name : Request → String
  | .lookup n => n
  | .isValid n => n
  | .format t _ service => t.keyName service
  | .register n => n

/-- What comes back from a request. -/
def Reply : Request → Type
  | .lookup _ => Option PropertyKey
  | .isValid _ => Bool
  | .format _ _ _ => PropertyKey
  | .register _ => PropertyKey

/-- The reply of a registry to a request. -/
def reply (r : Registry) : (x : Request) → x.Reply
  | .lookup n => r.find? n
  | .isValid n => (r.find? n).isSome
  | .format t _ service => (r.format t service).1
  | .register n => (r.register n).1

/-- The registry after a request. -/
def after (r : Registry) : Request → Registry
  | .lookup n => r.note n
  | .isValid n => r.note n
  | .format t _ service => (r.format t service).2
  | .register n => (r.register n).2

end Request

/-- A request with the reply to it. -/
structure Answer where
  /-- The request. -/
  request : Request
  /-- The reply. -/
  reply : request.Reply

/-- The answer gives out this key, or says that there is one. -/
def Answer.Tells : Answer → PropertyKey → Prop
  | ⟨.lookup _, found⟩, k => found = some k
  | ⟨.isValid _, valid⟩, _ => valid = true
  | ⟨.format _ _ _, given⟩, k => given = k
  | ⟨.register _, given⟩, k => given = k

/-- The answer of a registry to a request. -/
def answer (r : Registry) (x : Request) : Answer := ⟨x, x.reply r⟩

/-- The registry after a run. -/
def run (r : Registry) (xs : List Request) : Registry := xs.foldl Request.after r

/-- The answers to the requests of a run. -/
def answers : Registry → List Request → List Answer
  | _, [] => []
  | r, x :: xs => r.answer x :: answers (x.after r) xs

variable {r : Registry} {n : String} {k : PropertyKey} {a : Answer} {x : Request}
  {xs : List Request}

/-! ### The key of a name -/

/-- No request makes a name find another key, or none. -/
theorem find?_after (h : r.find? n = some k) (x : Request) : (x.after r).find? n = some k := by
  rw [find?_eq] at h ⊢
  cases hdeclared : declared? n with
  | some k' => rwa [hdeclared] at h
  | none =>
    rw [hdeclared, Option.none_or] at h
    rw [Option.none_or]
    -- a request can only add what the name would find anyway, or a key where there is none
    cases x with
    | lookup m => exact (view_note r m n).trans h
    | isValid m => exact (view_note r m n).trans h
    | format t ht service =>
      refine (view_format t service r n).trans ?_
      split
      · next hname => rw [format_fst (KeyTemplate.fits_of_mem ht service), hname, h, Option.getD_some]
      · exact h
    | register m =>
      refine (view_register r m n).trans ?_
      rw [if_neg, h]
      rintro ⟨rfl, hnone⟩
      simp [h] at hnone

/-- An answer tells of the key that its name finds. -/
theorem tells_of_find? (h : r.find? x.name = some k) : (r.answer x).Tells k := by
  cases x with
  | lookup m => exact h
  | isValid m => exact Option.isSome_iff_exists.mpr ⟨k, h⟩
  | format t ht service =>
    show (r.format t service).1 = k
    have hview : r.view (t.keyName service) = some k := by
      simpa [find?_eq, Request.name, declared?_keyName ht] using h
    rw [format_fst (KeyTemplate.fits_of_mem ht service), hview, Option.getD_some]
  | register m =>
    show (r.register m).1 = k
    have hfind : r.find? m = some k := h
    rw [register_fst, ← find?_eq, hfind, Option.getD_some]

/-- What an answer tells of is the key that its name finds from then on. -/
theorem exists_find?_of_tells (h : (r.answer x).Tells k) :
    ∃ k, (r.answer x).Tells k ∧ (x.after r).find? x.name = some k := by
  cases x with
  | lookup m => exact ⟨k, h, find?_after h (.lookup m)⟩
  | isValid m =>
    -- that a name is valid tells of any key, so also of the one that is found
    obtain ⟨k', hfind⟩ := Option.isSome_iff_exists.mp h
    exact ⟨k', h, find?_after hfind (.isValid m)⟩
  | format t ht service =>
    refine ⟨(r.format t service).1, rfl, ?_⟩
    show (r.format t service).2.find? (t.keyName service) = some (r.format t service).1
    rw [find?_eq, declared?_keyName ht, Option.none_or, view_format, if_pos rfl]
  | register m =>
    refine ⟨(r.register m).1, rfl, ?_⟩
    show (r.register m).2.find? m = some (r.register m).1
    rw [register_fst, ← find?_eq]
    cases hfind : r.find? m with
    | some k' => exact find?_after hfind (.register m)
    | none =>
      rw [find?_eq, Option.or_eq_none_iff] at hfind
      rw [find?_eq, hfind.1, view_register, hfind.1, hfind.2]
      simp

/-! #### Runs -/

theorem find?_run (h : r.find? n = some k) (xs : List Request) : (r.run xs).find? n = some k := by
  induction xs generalizing r with
  | nil => exact h
  | cons x xs ih => exact ih (find?_after h x)

/-- A key that a name finds is told by every answer about this name. -/
theorem tells_of_mem_answers (h : r.find? n = some k) (ha : a ∈ r.answers xs)
    (hn : a.request.name = n) : a.Tells k := by
  induction xs generalizing r with
  | nil => cases ha
  | cons x xs ih =>
    rcases List.mem_cons.mp ha with rfl | ha
    · exact tells_of_find? (hn ▸ h)
    · exact ih (find?_after h x) ha

/-- What an answer tells of is the key that its name finds at the end. -/
theorem exists_find?_run_of_tells (ha : a ∈ r.answers xs) (h : a.Tells k) :
    ∃ k, a.Tells k ∧ (r.run xs).find? a.request.name = some k := by
  induction xs generalizing r with
  | nil => cases ha
  | cons x xs ih =>
    rcases List.mem_cons.mp ha with rfl | ha
    · obtain ⟨k', htells, hfind⟩ := exists_find?_of_tells h
      exact ⟨k', htells, find?_run hfind xs⟩
    · exact ih ha

/-- Two answers about a name, of which the first tells of a key: both tell of one key, which has
this name. -/
def Answer.Agree (a b : Answer) : Prop :=
  a.request.name = b.request.name → (∃ k, a.Tells k) →
    ∃ k, k.name = a.request.name ∧ a.Tells k ∧ b.Tells k

theorem pairwise_agree_answers (r : Registry) (xs : List Request) :
    (r.answers xs).Pairwise Answer.Agree := by
  induction xs generalizing r with
  | nil => exact .nil
  | cons x xs ih =>
    refine .cons (fun b hb hname htells => ?_) (ih _)
    obtain ⟨k, hk⟩ := htells
    obtain ⟨k', htells, hfind⟩ := exists_find?_of_tells hk
    exact ⟨k', name_of_find? hfind, htells, tells_of_mem_answers hfind hb hname.symm⟩

/-! ### The known names -/

theorem notMem_names (hdeclared : declared? n = none) (hknown : r.known? n = none) :
    n ∉ r.names := by
  rw [declared?, List.find?_eq_none] at hdeclared
  rw [known?, List.find?_eq_none] at hknown
  simp only [names, List.map_append, List.mem_append, List.mem_map, not_or, not_exists, not_and]
  exact ⟨fun k hk => by simpa using hdeclared k hk, fun k hk => by simpa using hknown k hk⟩

theorem names_insert_perm (r : Registry) (k : PropertyKey) :
    (r.insert k).names.Perm (k.name :: r.names) := by
  rw [names, names, insert, List.map_append, List.map_append, List.map_cons]
  exact List.perm_middle

/-- A request makes nothing known, or a key of its own name that it tells of. -/
theorem after_eq (r : Registry) (x : Request) :
    x.after r = r ∨ ∃ k, k.name = x.name ∧ x.name ∉ r.names ∧ (r.answer x).Tells k ∧
      x.after r = r.insert k := by
  have hnote : ∀ n, r.note n = r ∨ ∃ k, k.name = n ∧ n ∉ r.names ∧ r.find? n = some k ∧
      r.note n = r.insert k := by
    intro n
    unfold note
    split
    · next k hdeclared hknown hk =>
      refine .inr ⟨k, name_of_templated? hk, notMem_names hdeclared hknown, ?_, rfl⟩
      rw [find?_eq, hdeclared, view, hknown, hk]
      rfl
    · exact .inl rfl
  cases x with
  | lookup n => exact hnote n
  | isValid n =>
    rcases hnote n with hsame | ⟨k, hname, hnew, hfind, hinsert⟩
    · exact .inl hsame
    · exact .inr ⟨k, hname, hnew, Option.isSome_iff_exists.mpr ⟨k, hfind⟩, hinsert⟩
  | format t ht service =>
    cases hknown : r.known? (t.keyName service) with
    | some k => exact .inl (by simp [Request.after, format, hknown])
    | none =>
      have hnew := notMem_names (declared?_keyName ht service) hknown
      have hformat : r.format t service = (t.instantiate (t.keyName service),
          r.insert (t.instantiate (t.keyName service))) := by
        simp [format, hknown]
      exact .inr ⟨_, rfl, hnew, congrArg Prod.fst hformat, congrArg Prod.snd hformat⟩
  | register n =>
    cases hfind : r.find? n with
    | some k =>
      have hafter : (r.register n).2 = r.note n := by simp [register, hfind]
      rcases hnote n with hsame | ⟨k', hname, hnew, hk', hinsert⟩
      · exact .inl (hafter.trans hsame)
      · refine .inr ⟨k', hname, hnew, ?_, hafter.trans hinsert⟩
        exact tells_of_find? (x := .register n) hk'
    | none =>
      have hnone := hfind
      rw [find?_eq, Option.or_eq_none_iff, view, Option.or_eq_none_iff] at hnone
      have hregister : r.register n = (.custom n, r.insert (.custom n)) := by
        simp [register, hfind]
      exact .inr ⟨.custom n, rfl, notMem_names hnone.1 hnone.2.1, congrArg Prod.fst hregister,
        congrArg Prod.snd hregister⟩

theorem nodup_names_after (h : r.names.Nodup) (x : Request) : (x.after r).names.Nodup := by
  rcases after_eq r x with hsame | ⟨k, hname, hnew, -, hinsert⟩
  · rwa [hsame]
  · rw [hinsert, (names_insert_perm r k).nodup_iff, List.nodup_cons, hname]
    exact ⟨hnew, h⟩

/-- The name of a request is known once the answer tells of a key. -/
theorem mem_names_after_of_tells (h : (r.answer x).Tells k) : x.name ∈ (x.after r).names := by
  cases x with
  | lookup n => exact mem_names_note h
  | isValid n =>
    obtain ⟨k', hfind⟩ := Option.isSome_iff_exists.mp h
    exact mem_names_note hfind
  | format t ht service => exact r.mem_names_format t service
  | register n => exact r.mem_names_register n

/-- A request makes its own name known, if there is a key, and no other name. -/
theorem mem_names_after_iff :
    n ∈ (x.after r).names ↔ n ∈ r.names ∨ x.name = n ∧ ∃ k, (r.answer x).Tells k := by
  constructor
  · intro hn
    rcases after_eq r x with hsame | ⟨k, hname, -, htells, hinsert⟩
    · exact .inl (hsame ▸ hn)
    · rw [hinsert, (names_insert_perm r k).mem_iff, List.mem_cons, hname] at hn
      exact hn.symm.imp_right fun heq => ⟨heq.symm, k, htells⟩
  · rintro (hn | ⟨rfl, k, htells⟩)
    · rcases after_eq r x with hsame | ⟨k, -, -, -, hinsert⟩
      · rwa [hsame]
      · rw [hinsert]
        exact r.names_subset_insert k hn
    · exact mem_names_after_of_tells htells

/-! #### Runs -/

theorem nodup_names_run (h : r.names.Nodup) (xs : List Request) : (r.run xs).names.Nodup := by
  induction xs generalizing r with
  | nil => exact h
  | cons x xs ih => exact ih (nodup_names_after h x)

theorem mem_names_run_iff :
    n ∈ (r.run xs).names ↔
      n ∈ r.names ∨ ∃ a ∈ r.answers xs, a.request.name = n ∧ ∃ k, a.Tells k := by
  induction xs generalizing r with
  | nil => simp [run, answers]
  | cons x xs ih =>
    show n ∈ ((x.after r).run xs).names ↔ _
    rw [ih, mem_names_after_iff, answers, List.exists_mem_cons_iff, or_assoc]
    rfl

/-! ### Listings -/

theorem map_name_keys_perm (r : Registry) : (r.keys.map PropertyKey.name).Perm r.names :=
  ((List.mergeSort_perm _ _).append_left _).map _

/-- A listed key is the one that its name finds. -/
theorem find?_of_mem_keys (h : r.names.Nodup) (hk : k ∈ r.keys) : r.find? k.name = some k := by
  have hname : k.name ∈ r.names := (map_name_keys_perm r).mem_iff.mp (List.mem_map_of_mem hk)
  obtain ⟨k', hk', hfind⟩ := exists_find?_of_mem_names hname
  rw [hfind, List.inj_on_of_nodup_map ((map_name_keys_perm r).nodup_iff.mpr h) hk' hk
    (name_of_find? hfind)]

/-- The keys that are listed after these answers. -/
structure Lists (as : List Answer) (keys : List PropertyKey) : Prop where
  /-- The declared keys come first, in the order of their declaration, and the others follow in the
  order of the bytes of their names. -/
  order : ∃ others, keys = PropertyKey.declared ++ others ∧
    (others.map fun k => Text.bytes k.name).Pairwise (· < ·)
  /-- No two have the same name. -/
  nodup : (keys.map PropertyKey.name).Nodup
  /-- Their names are those that are declared, and those for which an answer told of a key, -/
  known : ∀ n, n ∈ keys.map PropertyKey.name ↔ n ∈ PropertyKey.declared.map PropertyKey.name ∨
    ∃ a ∈ as, a.request.name = n ∧ ∃ k, a.Tells k
  /-- which is the key that is listed. -/
  told : ∀ k ∈ keys, ∀ a ∈ as, a.request.name = k.name → (∃ k', a.Tells k') → a.Tells k

/-- The keys that are not declared are listed in the order of the bytes of their names. -/
theorem pairwise_bytes_mergeSort (h : r.names.Nodup) :
    ((r.known.mergeSort fun k l => k.name ≤ l.name).map fun k => Text.bytes k.name).Pairwise
      (· < ·) := by
  have hperm := r.known.mergeSort_perm fun k l => k.name ≤ l.name
  have hsorted : (r.known.mergeSort fun k l => k.name ≤ l.name).Pairwise
      fun k l => decide (k.name ≤ l.name) = true := by
    refine List.pairwise_mergeSort (fun j k l hjk hkl => ?_) (fun k l => ?_) _
    · exact decide_eq_true (le_trans (of_decide_eq_true hjk) (of_decide_eq_true hkl))
    · simpa using le_total k.name l.name
  generalize (r.known.mergeSort fun k l => k.name ≤ l.name) = others at hperm hsorted ⊢
  rw [names, List.map_append] at h
  have hdistinct : others.Pairwise fun k l => k.name ≠ l.name :=
    List.pairwise_map.mp ((hperm.map _).nodup_iff.mpr h.of_append_right)
  refine List.pairwise_map.mpr ((hsorted.and hdistinct).imp fun hpair => ?_)
  exact Text.bytes_lt_iff.mpr (lt_of_le_of_ne (of_decide_eq_true hpair.1) hpair.2)

theorem lists_run (xs : List Request) : Lists (empty.answers xs) (empty.run xs).keys where
  order := ⟨_, rfl, pairwise_bytes_mergeSort (nodup_names_run (by decide) xs)⟩
  nodup := (map_name_keys_perm _).nodup_iff.mpr (nodup_names_run (by decide) xs)
  known n := (map_name_keys_perm _).mem_iff.trans mem_names_run_iff
  told k hk a ha hname htells := by
    obtain ⟨k', hk'⟩ := htells
    obtain ⟨k'', htells, hfind⟩ := exists_find?_run_of_tells ha hk'
    have hlisted := find?_of_mem_keys (nodup_names_run (by decide) xs) hk
    rw [hname, hlisted] at hfind
    rwa [Option.some.inj hfind]

/-- **A name keeps its key.** Whatever is asked of a registry, in any order: once an answer tells of
a key of a name, all later answers about this name tell of the same key. An answer about a declared
name tells of the declared key. What is listed are the declared keys, and then all other keys that
answers told of, each once and in the order of the bytes of their names. -/
theorem keys_stable (xs : List Request) :
    let as := empty.answers xs
    as.Pairwise Answer.Agree ∧
      (∀ a ∈ as, ∀ k ∈ PropertyKey.declared, a.request.name = k.name → a.Tells k) ∧
      Lists as (empty.run xs).keys := by
  have hdeclared : ∀ k ∈ PropertyKey.declared, empty.find? k.name = some k := by decide
  exact ⟨pairwise_agree_answers empty xs,
    fun a ha k hk hname => tells_of_mem_answers (hdeclared k hk) ha hname, lists_run xs⟩

/-- A key of its own stays where the family of peers would make another one. -/
example :
    ((empty.register "quorumsh..peers").2.format .servicePeers "").1
      = .custom "quorumsh..peers" := by decide

end Registry

end RaftAdmin
