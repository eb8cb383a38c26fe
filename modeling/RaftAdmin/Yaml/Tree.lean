import RaftAdmin.Yaml.Token

/-!
# Document trees

The nodes of a document as they are written: scalars without a meaning yet, and references in the
places where they stand.

## The model

What a reference refers to is a parameter of the type: the name of an anchor at first, and a number
of the anchor once all anchors are known.
-/

namespace RaftAdmin.Yaml

/-- The properties of a node. -/
structure Properties where
  /-- Its anchor. -/
  anchor? : Option String
  /-- Its tag, with the meaning of the handle in place of the handle. -/
  tag? : Option Tag
deriving DecidableEq, Repr, Inhabited

/-- No properties. -/
def Properties.bare : Properties := ⟨none, none⟩

/-- A node with references to `ρ`. -/
inductive Tree (ρ : Type) where
  /-- A scalar, plain or not. -/
  | scalar (properties : Properties) (isPlain : Bool) (text : String)
  /-- A sequence of items. -/
  | sequence (properties : Properties) (items : List (Tree ρ))
  /-- A mapping of keys to values. -/
  | mapping (properties : Properties) (entries : List (Tree ρ × Tree ρ))
  /-- A reference to an anchor. -/
  | alias (target : ρ)
deriving Inhabited

namespace Tree

/-- The scalar that stands where nothing is written. -/
def empty {ρ : Type} : Tree ρ := .scalar .bare true ""

mutual

/-- How many marks an account of the node from start to end consists of. -/
def size {ρ : Type} : Tree ρ → Nat
  | .scalar _ _ _ => 1
  | .alias _ => 1
  | .sequence _ items => 2 + sizeOfItems items
  | .mapping _ entries => 2 + sizeOfEntries entries

/-- The sizes of all items. -/
def sizeOfItems {ρ : Type} : List (Tree ρ) → Nat
  | [] => 0
  | t :: ts => size t + sizeOfItems ts

/-- The sizes of all keys and values. -/
def sizeOfEntries {ρ : Type} : List (Tree ρ × Tree ρ) → Nat
  | [] => 0
  | (k, v) :: es => size k + size v + sizeOfEntries es

end

end Tree

end RaftAdmin.Yaml
