import RaftAdmin.Config.Error
import RaftAdmin.Text.Listing
import RaftAdmin.Yaml.Document

/-!
# Nested site files

A YAML site file is a mapping whose entries may be nested instead of having dots in their names.

## The model

`flatten` gives every scalar, and every sequence of scalars, the name that the keys on the way to it
form with dots between them. Keys are scalars, nothing is no entry, and a value with a tag of its
own cannot be an entry. A file that holds anything but a mapping is malformed in its first line; if
a part of the mapping is no entry, no line is named.
-/

namespace RaftAdmin.Nested

open Yaml (Value)

/-- The text of a scalar. -/
def scalar? : Value → Option String
  | .text s => some s
  | .number n => some n.text
  | .bool true => some "true"
  | .bool false => some "false"
  | _ => none

/-- A name below another one. -/
def below (front name : String) : String := if front.isEmpty then name else front ++ "." ++ name

mutual

/-- The entries of a value with a name. -/
def flatten (name : String) : Value → Option (List (String × String))
  | .mapping entries => flattenEntries name entries
  | .sequence items => (items.mapM scalar?).map fun parts => [(name, Text.joinWith "," parts)]
  | .null => some []
  | v => (scalar? v).map fun text => [(name, text)]

/-- The entries of the entries of a mapping with a name. -/
def flattenEntries (name : String) : List (Value × Value) → Option (List (String × String))
  | [] => some []
  | (k, v) :: entries =>
    match scalar? k with
    | none => none
    | some key =>
      match flatten (below name key) v with
      | none => none
      | some front => (flattenEntries name entries).map (front ++ ·)

end

/-- The entries of a document. -/
def entriesOf (path : String) : Value → Except ConfigError (List (String × String))
  | .null => .ok []
  | .mapping entries =>
    match flattenEntries "" entries with
    | some found => .ok found
    | none => .error (.siteSyntax path 0)
  | _ => .error (.siteSyntax path 1)

/-- The entries of a YAML site file in order. -/
def read (path contents : String) : Except ConfigError (List (String × String)) :=
  match Yaml.read contents with
  | none => .error (.siteNotYaml path)
  | some v => entriesOf path v

end RaftAdmin.Nested
