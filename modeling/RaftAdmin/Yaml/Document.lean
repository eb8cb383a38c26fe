import RaftAdmin.Yaml.Grammar
import RaftAdmin.Yaml.Lexer
import RaftAdmin.Yaml.Schema

/-!
# From trees to values

Replaces the references of a document by the nodes they refer to, and scalars by what they mean.

## The model

A reference is to an anchor before it, and stands for the node that has the number of this anchor in
the whole document. The number of an anchor is how many different names there are before it; it is
shared only after a name was used again, and then the last node with a number is meant. References
may multiply a document, so their number is limited, and so is the depth to which collections nest;
a node that refers to itself is too deep.
-/

namespace RaftAdmin.Yaml

/-! ### Anchors -/

/-- What is known of the anchors of a document. -/
structure Anchors where
  /-- The names with their numbers. -/
  numbers : List (String × Nat)
  /-- How many nodes have an anchor. -/
  count : Nat
  /-- Which of these nodes has a number, the latest first. -/
  owners : List (Nat × Nat)
  /-- The nodes with an anchor. -/
  nodes : List (Nat × Tree Nat)

namespace Anchors

/-- No anchors. -/
def empty : Anchors := ⟨[], 0, [], []⟩

/-- Gives the anchor of the next node a number. -/
def define (a : Anchors) (name : String) : Anchors :=
  let number := a.numbers.length
  { a with
    numbers := (name, number) :: a.numbers.filter fun n => n.1 ≠ name
    count := a.count + 1
    owners := (number, a.count) :: a.owners }

/-- Remembers a node with an anchor. -/
def store (a : Anchors) (serial : Nat) (t : Tree Nat) : Anchors :=
  { a with nodes := (serial, t) :: a.nodes }

/-- The node that a number stands for. -/
def node? (a : Anchors) (number : Nat) : Option (Tree Nat) :=
  (a.owners.lookup number).bind fun serial => a.nodes.lookup serial

end Anchors

/-- Numbers the anchor of a node, if it has one, before the rest of the node is looked at. -/
def Anchors.around (p : Properties) (link : Anchors → Option (Tree Nat × Anchors)) (a : Anchors) :
    Option (Tree Nat × Anchors) :=
  match p.anchor? with
  | none => link a
  | some name => (link (a.define name)).map fun (t, b) => (t, b.store a.count t)

mutual

/-- Replaces names of anchors by their numbers. -/
def link : Tree String → Anchors → Option (Tree Nat × Anchors)
  | .scalar p isPlain s, a => a.around p fun a => some (.scalar p isPlain s, a)
  | .sequence p items, a =>
    a.around p fun a => (linkItems items a).map fun (items, a) => (.sequence p items, a)
  | .mapping p entries, a =>
    a.around p fun a => (linkEntries entries a).map fun (entries, a) => (.mapping p entries, a)
  | .alias name, a => (a.numbers.lookup name).map fun number => (.alias number, a)

/-- Replaces names of anchors in items. -/
def linkItems : List (Tree String) → Anchors → Option (List (Tree Nat) × Anchors)
  | [], a => some ([], a)
  | t :: ts, a =>
    match link t a with
    | none => none
    | some (t, a) => (linkItems ts a).map fun (ts, a) => (t :: ts, a)

/-- Replaces names of anchors in entries. -/
def linkEntries : List (Tree String × Tree String) → Anchors →
    Option (List (Tree Nat × Tree Nat) × Anchors)
  | [], a => some ([], a)
  | (k, v) :: es, a =>
    match link k a with
    | none => none
    | some (k, a) =>
      match link v a with
      | none => none
      | some (v, a) => (linkEntries es a).map fun (es, a) => ((k, v) :: es, a)

end

/-! ### Values -/

/-- The name of a node's tag if it is an own tag of the document. -/
def Properties.ownTag? (p : Properties) : Option String := p.tag?.bind Tag.ownName?

/-- Puts the own tag of a node around its value, if it has one with a name. -/
def Properties.wrap (p : Properties) (v : Value) : Value :=
  match p.ownTag? with
  | some tag => .tagged tag v
  | none => v

/-- The meaning of a scalar. One that is plain keeps its meaning under an own tag without a name;
any other is then a text. -/
def readScalar (p : Properties) (isPlain : Bool) (s : String) : Option Value :=
  let untagged := if isPlain then readPlain s else some (.text s)
  match p.tag? with
  | none => untagged
  | some tag => if tag.isOwn then untagged.map p.wrap else readTaggedScalar tag s

/-- How deep collections may nest. -/
def maxDepth : Nat := 128

/-- How many references may be followed for each mark of the document. -/
def maxReferences : Nat := 100

/-- A computation that may fail, and that counts how many references may still be followed. -/
abbrev Budgeted := StateT Nat Option

/-- Follows a reference. -/
def follow (node? : Nat → Option (Tree Nat)) (number : Nat) : Budgeted (Tree Nat) := do
  match ← get, node? number with
  | budget + 1, some t =>
    set budget
    pure t
  | _, _ => failure

/-- The value of a node that is no reference, given what its parts mean. -/
def composeNode (part : Tree Nat → Budgeted Value) (mayNest : Bool) : Tree Nat → Budgeted Value
  | .scalar p isPlain s =>
    match readScalar p isPlain s with
    | some v => pure v
    | none => failure
  | .sequence p items =>
    if mayNest then do return p.wrap (.sequence (← items.mapM part)) else failure
  | .mapping p entries =>
    if mayNest then do
      let entries ← entries.foldlM
        (fun done (k, v) => do
          let k ← part k
          if done.any fun e => e.1.same k then failure
          return done ++ [(k, ← part v)])
        []
      return p.wrap (.mapping entries)
    else failure
  | .alias _ => failure

/-- The value of a node at most `depth` collections deep. -/
def compose (node? : Nat → Option (Tree Nat)) : Nat → Tree Nat → Budgeted Value
  | 0, t => do composeNode (fun _ => failure) false (← resolve node? t)
  | depth + 1, t => do composeNode (compose node? depth) true (← resolve node? t)
where
  /-- The node itself, or the one it refers to. -/
  resolve (node? : Nat → Option (Tree Nat)) : Tree Nat → Budgeted (Tree Nat)
    | .alias number => follow node? number
    | t => pure t

/-- The value of a document. -/
def Value.ofTree? (t : Tree String) : Option Value :=
  match link t .empty with
  | none => none
  | some (linked, anchors) =>
    (compose anchors.node? maxDepth linked (maxReferences * t.size)).map Prod.fst

/-- The value of a text that holds at most one document; none if it is malformed. -/
def read (text : String) : Option Value :=
  match (tokens? text).bind Grammar.documentOf with
  | none => none
  | some none => some .null
  | some (some t) => Value.ofTree? t

end RaftAdmin.Yaml
