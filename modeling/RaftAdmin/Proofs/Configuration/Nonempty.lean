import RaftAdmin.Proofs.Configuration.Provenance

/-!
# No read is empty

No layer takes an empty value, but a value that is not empty could still come down to nothing when
its references are replaced, and a key brings a default of its own. Neither happens with the keys
that are declared or that the configuration gives out.

## The model

A run is a list of calls, and a key is in hand if it is declared or a call of the run gave it out; a
name that is listed stands for the key that the configuration has for it. Values may be set and
removed with any keys, since a layer keeps the name of a key and not its default.

## What is proved

* `Reached.run` — a run leads from reached configurations to reached configurations.
* `default?_ne_empty_of_given` — no key that is given out has an empty default.
* **`get_ne_empty_of_inHand`** — after any run, no key in hand reads as the empty text.
-/

namespace RaftAdmin.Configuration

open Reference (Asks Expands)

variable {c : Configuration} {k : PropertyKey} {v : String} {x : Call} {held : List PropertyKey}

/-! ### Calls -/

/-- The keys that a call gives out. -/
def Call.given (c : Configuration) : Call → List PropertyKey
  | .key name => (c.key? name).toList
  | .templateKey t service => [c.templateKey t service]
  | .keys => c.keys
  | .userNames => c.userNames.filterMap c.key?
  | _ => []

theorem Reached.after (h : c.Reached) (x : Call) : (x.after c).Reached := by
  cases x with
  | change x => exact h.apply x
  | key name => exact h.note _
  | templateKey t service => exact h.templateKey t service
  | get g k => exact h.note _
  | isSet k => exact h.note _
  | isSetByUser k =>
    rw [Call.after]
    split
    · exact h.note _
    · exact h
  | _ => exact h

/-- No key that is given out has an empty default. -/
theorem default?_ne_empty_of_given (h : c.Filled) (hk : k ∈ x.given c) :
    k.default? ≠ some "" := by
  cases x with
  | key name => exact h.default?_ne_empty_of_key? (Option.mem_toList.mp hk)
  | templateKey t service =>
    obtain rfl := List.mem_singleton.mp hk
    have hnone : (c.templateKey t service).default? = none := h.known.default?_format t service
    simp [hnone]
  | keys =>
    refine h.default?_ne_empty (List.mem_append.mpr ((List.mem_append.mp hk).imp_right ?_))
    exact List.mem_mergeSort.mp
  | userNames =>
    obtain ⟨name, -, hkey⟩ := List.mem_filterMap.mp hk
    exact h.default?_ne_empty_of_key? hkey
  | _ => cases hk

/-! ### Runs -/

theorem Reached.run (h : c.Reached) (xs : List Call) : (c.run xs).Reached := by
  induction xs generalizing c with
  | nil => exact h
  | cons x xs ih => exact ih (h.after x)

/-- The keys in hand after a run: those that were before, and those that its calls gave out. -/
def keysInHand (held : List PropertyKey) : Configuration → List Call → List PropertyKey
  | _, [] => held
  | c, x :: xs => keysInHand (held ++ x.given c) (x.after c) xs

/-- No key in hand comes to have an empty default. -/
theorem default?_ne_empty_of_inHand (h : c.Reached) (hheld : ∀ k ∈ held, k.default? ≠ some "")
    {xs : List Call} (hk : k ∈ keysInHand held c xs) : k.default? ≠ some "" := by
  induction xs generalizing c held with
  | nil => exact hheld k hk
  | cons x xs ih =>
    refine ih (h.after x) (fun j hj => ?_) hk
    rcases List.mem_append.mp hj with hj | hj
    · exact hheld j hj
    · exact default?_ne_empty_of_given h.filled hj

/-- **No read is empty.** After any merging, setting, removing and reading, a key that is declared
or that was given out on the way reads as a text that is not empty, if it reads as a text at all,
whatever references were replaced. -/
theorem get_ne_empty_of_inHand (xs : List Call)
    (hk : k ∈ keysInHand PropertyKey.declared .empty xs)
    (hget : (Configuration.empty.run xs).get k = .ok v) : v ≠ "" :=
  (Reached.empty.run xs).filled.get_ne_empty_of_default
    (default?_ne_empty_of_inHand .empty PropertyKey.default?_ne_empty hk) hget

/-- A value that forms a reference with what stands around it, to a key that is set to a blank. -/
theorem get_ne_empty_of_inHand_blank :
    let xs : List Call :=
      [.change (.merge [("a", " $$\x7bb\x7d\x7d "), ("b", "\x7bquorumsh.home")]), .key "a",
        .change (.set .home " "), .change (.set .home "")]
    .custom "a" ∈ keysInHand PropertyKey.declared .empty xs ∧
      (Configuration.empty.run xs).get (.custom "a") = .ok " " ∧ " " ≠ "" := by
  intro xs
  let c := Configuration.empty.run xs
  have hhand : .custom "a" ∈ keysInHand PropertyKey.declared .empty xs := by decide
  have houter : Asks c.define ["a"] "$$\x7bb\x7d\x7d".toList ['$'] ['b'] ['\x7d']
      "\x7bquorumsh.home".toList := ⟨by decide, by decide, by decide⟩
  have hformed : Asks c.define ["a"] "$\x7bquorumsh.home\x7d".toList [] "quorumsh.home".toList []
      [' '] := ⟨by decide, by decide, by decide⟩
  have hblank : Expands c.define ["a"] "$\x7bquorumsh.home\x7d".toList (.ok [' ']) :=
    .replaced hformed (.done (by decide)) (.done (by decide))
  have hexp : Expands c.define ["a"] "$$\x7bb\x7d\x7d".toList (.ok [' ']) :=
    .replaced houter (.done (by decide)) hblank
  have hraw : c.store.get? (.custom "a") = some "$$\x7bb\x7d\x7d" := by decide
  have hget : c.get (.custom "a") = .ok " " := get_of_expands hraw hexp
  exact ⟨hhand, hget, get_ne_empty_of_inHand xs hhand hget⟩

end RaftAdmin.Configuration
