import RaftAdmin.Yaml.Tag

/-!
# YAML tokens

The words of a YAML document after its indentation has been made explicit.
-/

namespace RaftAdmin.Yaml

/-- A token. -/
inductive Token where
  /-- The directive that names the version of the language. -/
  | version (major minor : Nat)
  /-- The directive that says what a handle of tags stands for. -/
  | handle (name : String) (meaning : Tag)
  /-- The start of a document. -/
  | documentStart
  /-- The end of a document. -/
  | documentEnd
  /-- The start of a sequence of lines with dashes. -/
  | blockSequence
  /-- The start of a mapping whose keys are on lines of their own. -/
  | blockMapping
  /-- The end of such a sequence or mapping. -/
  | blockEnd
  /-- An opening bracket. -/
  | openSequence
  /-- A closing bracket. -/
  | closeSequence
  /-- An opening brace. -/
  | openMapping
  /-- A closing brace. -/
  | closeMapping
  /-- The dash before an item. -/
  | item
  /-- The comma between items. -/
  | comma
  /-- What introduces a key. -/
  | key
  /-- What introduces a value. -/
  | value
  /-- A reference to an anchor. -/
  | alias (name : String)
  /-- The anchor of the node that follows. -/
  | anchor (name : String)
  /-- The tag of the node that follows. -/
  | tag (t : WrittenTag)
  /-- A scalar. -/
  | scalar (isPlain : Bool) (text : String)
deriving DecidableEq, Repr

end RaftAdmin.Yaml
