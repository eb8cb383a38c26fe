import RaftAdmin.Text.Listing
import RaftAdmin.Text.Numeral

/-!
# Configuration errors

What can go wrong when a property is read, set or loaded from a site file.

## The model

An error is its cause. Its message is kept in fragments, because a message goes to the operator's
stream fragment by fragment and the stream may break between two of them.
-/

namespace RaftAdmin

/-- The type that a typed getter reads a value as. -/
inductive ValueKind where
  /-- A 32-bit integer. -/
  | integer
  /-- A 64-bit integer. -/
  | long
  /-- A double-precision number. -/
  | double
  /-- True or false. -/
  | boolean
  /-- One of a fixed list of names, by the name of the list. -/
  | choice (name : String)
  /-- A span of time. -/
  | duration
deriving DecidableEq, Repr

/-- What messages call the type. -/
def ValueKind.text : ValueKind → String
  | integer => "integer"
  | long => "long"
  | double => "double"
  | boolean => "boolean"
  | choice name => name
  | duration => "non-negative duration in milliseconds"

/-- Why a file cannot be read as text. -/
inductive FileFault where
  /-- There is no such file. -/
  | notFound
  /-- The path names a directory. -/
  | isDirectory
  /-- The path goes through something that is not a directory. -/
  | notDirectory
  /-- The contents are not UTF-8. -/
  | notText
deriving DecidableEq, Repr

/-- What the operating system says about the fault. -/
def FileFault.message : FileFault → String
  | notFound => "No such file or directory (os error 2)"
  | isDirectory => "Is a directory (os error 21)"
  | notDirectory => "Not a directory (os error 20)"
  | notText => "stream did not contain valid UTF-8"

/-- Why a property cannot be read or set, or a site file not be loaded. -/
inductive ConfigError where
  /-- No layer supplies a value. -/
  | undefinedKey (key : String)
  /-- A reference leads back into the chain of keys being resolved. -/
  | circularDependency (key : String) (chain : List String)
  /-- A reference names an unknown key. -/
  | invalidKey (key : String)
  /-- The resolved value is not of the requested type. -/
  | typeMismatch (key value : String) (expected : ValueKind)
  /-- An empty value was given. -/
  | emptyValue (key : String)
  /-- Replacing the references of a value does not come to an end. -/
  | endless (key : String)
  /-- The site file cannot be read. -/
  | siteUnreadable (path : String) (fault : FileFault)
  /-- The site file is not a YAML document. -/
  | siteNotYaml (path : String)
  /-- A line of the site file, or its structure (line 0 or 1 of a YAML file), is malformed. -/
  | siteSyntax (path : String) (line : Nat)
deriving DecidableEq, Repr

namespace ConfigError

/-- The name of the cause. -/
def name : ConfigError → String
  | undefinedKey _ => "UndefinedKey"
  | circularDependency _ _ => "CircularDependency"
  | invalidKey _ => "InvalidKey"
  | typeMismatch _ _ _ => "TypeMismatch"
  | emptyValue _ => "EmptyValue"
  | endless _ => "EndlessSubstitution"
  | siteUnreadable _ _ => "SiteIo"
  | siteNotYaml _ => "SiteYaml"
  | siteSyntax _ _ => "SiteSyntax"

/-- The message in fragments. -/
def fragments : ConfigError → List String
  | undefinedKey key => ["undefined configuration key \"", key, "\""]
  | circularDependency key chain =>
    ["circular dependency while resolving \"", key, "\" (via ", Text.listing chain, ")"]
  | invalidKey key =>
    ["invalid configuration key \"", key, "\" referenced in a property value"]
  | typeMismatch key value expected =>
    ["value \"", value, "\" of key \"", key, "\" is not a valid ", expected.text]
  | emptyValue key =>
    ["the key \"", key, "\" cannot have an empty string as a value, unset it instead"]
  | endless key => ["the references in the value of key \"", key, "\" never come to an end"]
  | siteUnreadable path fault => ["failed to read site file ", path, ": ", fault.message]
  | siteNotYaml path => ["failed to parse site file ", path, ": not a YAML document"]
  | siteSyntax path line => ["malformed line ", Text.numeral line, " in site file ", path]

/-- The message for the operator. -/
def message (e : ConfigError) : String := String.join e.fragments

/-- The message followed by those of its causes, as a failed start shows it. -/
def chainMessage : ConfigError → String
  | siteUnreadable path fault =>
    (siteUnreadable path fault).message ++ ": " ++ fault.message
  | siteNotYaml path => (siteNotYaml path).message ++ ": not a YAML document"
  | e => e.message

end ConfigError

end RaftAdmin
