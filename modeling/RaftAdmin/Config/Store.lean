import RaftAdmin.Config.Key

/-!
# The layered store

Raw property values in two layers above the declared defaults: values set at run time win over
values of the site file, which win over the default.

## The model

A layer maps names to raw values and holds at most one value of a name. Removing a key removes it
from both layers, after which its default shows again.
-/

namespace RaftAdmin

/-- Which layer supplies a value. -/
inductive Source where
  /-- Set at run time. -/
  | runtime
  /-- Read from the site file. -/
  | siteFile
  /-- The declared default. -/
  | default
deriving DecidableEq, Repr

/-- Names with their raw values, at most one of each name. -/
structure Layer where
  /-- The values by name. -/
  entries : List (String × String)
deriving DecidableEq, Repr

namespace Layer

/-- The layer without values. -/
def empty : Layer := ⟨[]⟩

/-- The value of a name. -/
def get? (l : Layer) (name : String) : Option String := l.entries.lookup name

/-- The layer without the value of a name. -/
def erase (l : Layer) (name : String) : Layer := ⟨l.entries.filter fun e => e.1 ≠ name⟩

/-- The layer with this value of a name. -/
def insert (l : Layer) (name value : String) : Layer := ⟨(name, value) :: (l.erase name).entries⟩

/-- The names that have a value. -/
def names (l : Layer) : List String := l.entries.map Prod.fst

end Layer

/-- The two layers of raw values above the defaults. -/
structure Store where
  /-- Values set at run time. -/
  runtime : Layer
  /-- Values of the site file. -/
  site : Layer
deriving DecidableEq, Repr

namespace Store

/-- The store in which every key has its default. -/
def empty : Store := ⟨.empty, .empty⟩

instance : Inhabited Store := ⟨empty⟩

/-- The raw value of a key and the layer that supplies it. -/
def lookup (s : Store) (k : PropertyKey) : Option (String × Source) :=
  match s.runtime.get? k.name with
  | some v => some (v, .runtime)
  | none =>
    match s.site.get? k.name with
    | some v => some (v, .siteFile)
    | none => k.default?.map fun v => (v, .default)

/-- The raw value of a key. -/
def get? (s : Store) (k : PropertyKey) : Option String := (s.lookup k).map Prod.fst

/-- The layer that supplies the value of a key. -/
def source? (s : Store) (k : PropertyKey) : Option Source := (s.lookup k).map Prod.snd

/-- Sets a run-time value. -/
def put (s : Store) (k : PropertyKey) (v : String) : Store :=
  { s with runtime := s.runtime.insert k.name v }

/-- Sets a site-file value. -/
def putSite (s : Store) (k : PropertyKey) (v : String) : Store :=
  { s with site := s.site.insert k.name v }

/-- Removes the values of a key from both layers. -/
def remove (s : Store) (k : PropertyKey) : Store :=
  ⟨s.runtime.erase k.name, s.site.erase k.name⟩

/-- Whether a key has a value. -/
def isSet (s : Store) (k : PropertyKey) : Bool := (s.get? k).isSome

/-- Whether a key has a value that is not its default. -/
def isSetByUser (s : Store) (k : PropertyKey) : Bool :=
  match s.source? k with
  | some .runtime => true
  | some .siteFile => true
  | _ => false

/-- The names that have a value in one of the layers, by name. -/
def userNames (s : Store) : List String :=
  (s.runtime.names ++ s.site.names.filter fun n => (s.runtime.get? n).isNone).mergeSort
    fun m n => m ≤ n

end Store

end RaftAdmin
