import RaftAdmin.Config.Error
import RaftAdmin.Text.Blank

/-!
# References between properties

A raw value may refer to other properties as `$` and a name in braces. Reading a property replaces
the references in its value by the values they stand for.

## The model

The leftmost reference without braces inside is replaced by the value of its name, and the text is
searched again from its start, until no reference is left; so a replaced value can form a reference
with what stands around it. The value of a name is found in the same way with the name added to the
chain of names being resolved, and a name of the chain may not be met again.

The chain has no repeats, so it is never longer than the list of names that have a value. How often
one text is replaced has no such bound: values with braces of their own can form new references
without end. `expand` follows the texts wherever they lead; where they lead nowhere, it has no
result.

An expansion also reports which names were looked up.
-/

namespace RaftAdmin

/-- What a name stands for. -/
inductive Definition where
  /-- No key has this name. -/
  | unknown
  /-- The key has no value. -/
  | unset
  /-- The key has this raw value. -/
  | raw (text : List Char)
deriving DecidableEq, Repr

/-- What comes of replacing the references of a text. -/
structure Expansion where
  /-- The text without references, or the error. -/
  outcome : Except ConfigError (List Char)
  /-- The names that were looked up, the latest first. -/
  consulted : List String

namespace Reference

/-- A reference at the start of a text: the characters between the braces, and what follows. -/
def opening? : List Char → Option (List Char × List Char)
  | '$' :: '\x7b' :: cs =>
    match cs.dropWhile fun c => c ≠ '\x7b' ∧ c ≠ '\x7d' with
    | '\x7d' :: after => some (cs.takeWhile fun c => c ≠ '\x7b' ∧ c ≠ '\x7d', after)
    | _ => none
  | _ => none

/-- The leftmost reference of a text: what precedes it, the characters between its braces, and what
follows it. -/
def next? : List Char → Option (List Char × List Char × List Char)
  | [] => none
  | c :: cs =>
    match opening? (c :: cs) with
    | some (inner, after) => some ([], inner, after)
    | none => (next? cs).map fun (before, inner, after) => (c :: before, inner, after)

/-- The name between the braces of a reference. -/
def name (inner : List Char) : String := String.ofList (Text.trimChars inner)

/-- What names stand for. -/
abbrev Definitions := String → Definition

/-- The text without its references, if replacing them comes to an end. `chain` holds the names
being resolved, and `seen` those that were looked up before. -/
def Definitions.expand (define : Definitions) (chain seen : List String) (text : List Char) :
    Option Expansion :=
  match next? text with
  | none => some ⟨.ok text, seen⟩
  | some (before, inner, after) =>
    if name inner ∈ chain then
      some ⟨.error (.circularDependency (name inner) chain), seen⟩
    else
      match define (name inner) with
      | .unknown => some ⟨.error (.invalidKey (name inner)), seen.insert (name inner)⟩
      | .unset => some ⟨.error (.undefinedKey (name inner)), seen.insert (name inner)⟩
      | .raw raw => do
        let e ← define |>.expand (chain ++ [name inner]) (seen.insert (name inner)) raw
        match e.outcome with
        | .ok value => define |>.expand chain e.consulted (before ++ value ++ after)
        | .error _ => some e
partial_fixpoint

end Reference

end RaftAdmin
