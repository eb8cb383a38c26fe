import RaftAdmin.Config.Reference
import RaftAdmin.Config.Registry
import RaftAdmin.Config.Store

/-!
# The configuration

The configuration joins the key registry, the layered store and the references between values.

## The model

Values are stored raw and resolved on every read, so that a reference sees whichever layer supplies
its key at that time. A read whose replacing never ends does not return; `endless` stands for it.
Reading changes nothing but the list of keys: `afterReading` is the configuration whose registry has
noted the names that the read looked up.
-/

namespace RaftAdmin

/-- The properties of one run. -/
structure Configuration where
  /-- The known keys. -/
  registry : Registry
  /-- The raw values. -/
  store : Store
  /-- The path of the site file that was loaded, as it is shown. -/
  siteFile? : Option String
deriving Inhabited

namespace Configuration

/-- The configuration in which every key has its default. -/
def empty : Configuration := ⟨.empty, .empty, none⟩

/-! ### Keys -/

/-- The key of this name. -/
def key? (c : Configuration) (name : String) : Option PropertyKey := c.registry.find? name

/-- Notes names that were looked up. -/
def note (c : Configuration) (names : List String) : Configuration :=
  { c with registry := c.registry.noteAll names }

/-- The key of a family for a service id. -/
def templateKey (c : Configuration) (t : KeyTemplate) (service : String) : PropertyKey :=
  (c.registry.format t service).1

/-- The configuration after asking for the key of a family. -/
def afterTemplateKey (c : Configuration) (t : KeyTemplate) (service : String) : Configuration :=
  { c with registry := (c.registry.format t service).2 }

/-- The declared keys, then the other known keys by name. -/
def keys (c : Configuration) : List PropertyKey := c.registry.keys

/-- The names that have a value of their own, by name. -/
def userNames (c : Configuration) : List String := c.store.userNames

/-! ### Changes -/

/-- Sets a run-time value, which may not be empty. -/
def set (c : Configuration) (k : PropertyKey) (v : String) : Except ConfigError Configuration :=
  if v.isEmpty then .error (.emptyValue k.name) else .ok { c with store := c.store.put k v }

/-- Removes the values of a key. -/
def unset (c : Configuration) (k : PropertyKey) : Configuration :=
  { c with store := c.store.remove k }

/-- Merges one entry of a site file: names and values are trimmed, and an entry with an empty name
or value is skipped. -/
def mergeEntry (c : Configuration) (entry : String × String) : Configuration :=
  let name := Text.trim entry.1
  let value := Text.trim entry.2
  if name.isEmpty || value.isEmpty then c
  else
    let (k, registry) := c.registry.register name
    { c with registry := registry, store := c.store.putSite k value }

/-- Merges the entries of a site file in order. -/
def merge (c : Configuration) (entries : List (String × String)) : Configuration :=
  entries.foldl mergeEntry c

/-! ### Reading -/

/-- What a name stands for. -/
def define (c : Configuration) (name : String) : Definition :=
  match c.registry.find? name with
  | none => .unknown
  | some k =>
    match c.store.get? k with
    | none => .unset
    | some raw => .raw raw.toList

/-- The expansion of the raw value of a key, if it comes to an end. -/
def expansion (c : Configuration) (k : PropertyKey) : Option Expansion :=
  match c.store.get? k with
  | none => some ⟨.error (.undefinedKey k.name), []⟩
  | some raw => Reference.Definitions.expand c.define [k.name] [] raw.toList

/-- The resolved value of a key. -/
def get (c : Configuration) (k : PropertyKey) : Except ConfigError String :=
  match c.expansion k with
  | some e => e.outcome.map String.ofList
  | none => .error (.endless k.name)

/-- The names that reading a key looks up. -/
def consulted (c : Configuration) (k : PropertyKey) : List String :=
  ((c.expansion k).map Expansion.consulted).getD []

/-- The configuration after reading a key. -/
def afterReading (c : Configuration) (k : PropertyKey) : Configuration := c.note (c.consulted k)

/-- The layer that supplies the value of a key. -/
def source? (c : Configuration) (k : PropertyKey) : Option Source := c.store.source? k

/-- Whether a read succeeds. -/
def resolves (c : Configuration) (k : PropertyKey) : Bool :=
  match c.get k with
  | .ok _ => true
  | .error _ => false

/-- Whether a key has a value that resolves. -/
def isSet (c : Configuration) (k : PropertyKey) : Bool := c.store.isSet k && c.resolves k

/-- Whether a key has a value that resolves and is not its default. -/
def isSetByUser (c : Configuration) (k : PropertyKey) : Bool :=
  c.store.isSetByUser k && c.resolves k

end Configuration

end RaftAdmin
