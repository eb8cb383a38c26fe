import RaftAdmin.Config.Key

/-!
# The key registry

The registry knows which names are keys: the declared ones, those of a family, and those that were
registered.

## The model

`find?` answers without changing anything. Finding a name of a family also makes the registry list
that name from then on (`note`), which only `keys` shows: noting never changes what is found, since
the noted key is the one that is found anyway.
-/

namespace RaftAdmin

/-- The keys known beyond the declared ones, the latest first. -/
structure Registry where
  /-- The keys, at most one of each name. -/
  known : List PropertyKey
deriving DecidableEq, Repr

namespace Registry

/-- The registry that knows the declared keys only. -/
def empty : Registry := ⟨[]⟩

instance : Inhabited Registry := ⟨empty⟩

/-- The declared key of this name. -/
def declared? (name : String) : Option PropertyKey :=
  PropertyKey.declared.find? fun k => k.name = name

/-- The key of this name that was registered or noted. -/
def known? (r : Registry) (name : String) : Option PropertyKey :=
  r.known.find? fun k => k.name = name

/-- The key of this name in the first family it belongs to. -/
def templated? (name : String) : Option PropertyKey :=
  (KeyTemplate.all.find? fun t => t.isMatch name).map fun t => t.instantiate name

/-- The key of this name: declared, known, or of a family. -/
def find? (r : Registry) (name : String) : Option PropertyKey :=
  match declared? name with
  | some k => some k
  | none =>
    match r.known? name with
    | some k => some k
    | none => templated? name

/-- Adds a key. -/
def insert (r : Registry) (k : PropertyKey) : Registry := ⟨k :: r.known⟩

/-- Remembers a name that was looked up, if it belongs to a family and is not known yet. -/
def note (r : Registry) (name : String) : Registry :=
  match declared? name, r.known? name, templated? name with
  | none, none, some k => r.insert k
  | _, _, _ => r

/-- Remembers names that were looked up. -/
def noteAll (r : Registry) (names : List String) : Registry := names.foldl note r

/-- The key of a family for a service id, which may be empty, and the registry that lists it. -/
def format (r : Registry) (t : KeyTemplate) (service : String) : PropertyKey × Registry :=
  let name := t.keyName service
  match r.known? name with
  | some k => (k, r)
  | none => (t.instantiate name, r.insert (t.instantiate name))

/-- The key of this name, registered as a custom key if it is unknown. -/
def register (r : Registry) (name : String) : PropertyKey × Registry :=
  match r.find? name with
  | some k => (k, r.note name)
  | none => (.custom name, r.insert (.custom name))

/-- The declared keys, then the other known keys by name. -/
def keys (r : Registry) : List PropertyKey :=
  PropertyKey.declared ++ r.known.mergeSort fun k l => k.name ≤ l.name

end Registry

end RaftAdmin
