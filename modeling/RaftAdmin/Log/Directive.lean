import RaftAdmin.Decimal.Binary64
import RaftAdmin.Log.Event
import RaftAdmin.Log.Pattern
import RaftAdmin.Text.Alphanumeric
import RaftAdmin.Text.Blank
import RaftAdmin.Text.Numeral
import RaftAdmin.Text.Split

/-!
# Log directives

A directive says up to which level events are logged that come from some part of the program.

## The model

A directive is a threshold, or a target, then brackets with the name of a span and a field in
braces, then an equals sign and a threshold; of these parts, the target or the brackets must be
there, and everything is let through if no threshold is given. A field may have a value, which is a
number, a truth value or a pattern.

Blanks around a directive are looked past, but they are not cut off: a name or a threshold is what
stands in the text, with its blanks, at the places that were found without them.
-/

namespace RaftAdmin

/-- A field that an event must have. -/
structure LogField where
  /-- Its name. -/
  name : String
  /-- What its value must be like. -/
  value? : Option String
deriving DecidableEq, Repr

/-- What lets events through. -/
structure LogDirective where
  /-- What the target of an event starts with. -/
  target? : Option String
  /-- The span in which an event happens. -/
  span? : Option String
  /-- The field that an event has. -/
  field? : Option LogField
  /-- The highest rank that is let through, or zero. -/
  threshold : Nat
deriving DecidableEq, Repr

namespace LogDirective

/-! ### Which events a directive is about -/

/-- Whether a directive is about events at all: the program opens no spans, and values of fields
are looked at only there. -/
def isAboutEvents (d : LogDirective) : Bool :=
  d.span?.isNone && (d.field?.bind LogField.value?).isNone

/-- Whether a directive is about an event. -/
def concerns (d : LogDirective) (e : LogEvent) : Bool :=
  d.isAboutEvents
    && d.target?.all (fun t => Text.startsWith t.toList e.reporter.target.toList)
    && d.field?.all fun f => e.fieldNames.contains f.name

/-- How much of a target a directive names. -/
def targetSize (d : LogDirective) : Nat :=
  match d.target? with
  | some target => target.utf8ByteSize + 1
  | none => 0

/-- Whether a field decides no earlier than another one: by its name, and last if there is none. -/
def fieldAtMost : Option LogField → Option LogField → Bool
  | none, _ => true
  | some _, none => false
  | some f, some g => f.name ≤ g.name

/-- Whether a directive is no more specific than another one. -/
def atMost (d e : LogDirective) : Bool :=
  d.targetSize < e.targetSize
    || (d.targetSize = e.targetSize && fieldAtMost d.field? e.field?)

/-! ### Thresholds -/

/-- The names of the thresholds, from zero on. -/
def thresholdNames : List String := ["off", "error", "warn", "info", "debug", "trace"]

/-- Reads a threshold: its name in any case, or its number. -/
def readThreshold? (cs : List Char) : Option Nat :=
  match thresholdNames.idxOf? (String.ofList (cs.map Char.toLower)) with
  | some n => some n
  | none => Text.readNat? thresholdNames.length cs

/-- The threshold that lets everything through. -/
def everything : Nat := Level.trace.rank

/-! ### Reading -/

/-- What is left of a directive: the characters that are looked at, each with the one that stands at
its place in the text, and what follows the last of these in the text. -/
structure Rest where
  /-- The characters that are looked at, with those that count. -/
  marks : List (Char × Char)
  /-- What follows in the text. -/
  tail : List Char

namespace Rest

/-- The text of a directive. -/
def ofText (cs : List Char) : Rest :=
  let seen := Text.trimChars cs
  ⟨seen.zip cs, cs.drop seen.length⟩

/-- The text up to the end. -/
def all (r : Rest) : List Char := r.marks.map Prod.snd ++ r.tail

/-- The next character that is looked at. -/
def peek? (r : Rest) : Option Char := r.marks.head?.map Prod.fst

/-- The rest after the next character. -/
def next (r : Rest) : Rest := { r with marks := r.marks.tail }

/-- The text before the first of some separators, and the rest from there on. -/
def cut (r : Rest) (separators : List Char) : String × Rest :=
  let isWithin := fun m : Char × Char => !separators.contains m.1
  (String.ofList ((r.marks.takeWhile isWithin).map Prod.snd),
    { r with marks := r.marks.dropWhile isWithin })

end Rest

/-- Reads a threshold after its equals sign. -/
def readAssigned? (r : Rest) : Option Nat :=
  if r.all.isEmpty then some everything else readThreshold? r.all

/-- Reads a threshold with its equals sign, if there is one; nothing else may follow. -/
def readLast? (r : Rest) : Option Nat :=
  match r.peek? with
  | none => some everything
  | some c => if c = '=' then readAssigned? r.next else none

/-- Whether something may be the value of a field. -/
def isValue (cs : List Char) : Bool := (Binary64.read? cs).isSome || Pattern.isWellFormed cs

/-- Reads a field; a further equals sign ends its value. -/
def readField? (s : String) : Option LogField :=
  match Text.splitAt '=' s with
  | [] => none
  | [name] => if name.isEmpty then none else some ⟨name, none⟩
  | name :: value :: _ => if isValue value.toList then some ⟨name, some value⟩ else none

/-- Reads the rest of a directive after the brace that opens a field. -/
def readAfterBrace? (target? span? : Option String) (r : Rest) : Option LogDirective :=
  let (field, r) := r.cut ['\x7d']
  if r.peek? = some '\x7d' && r.next.peek? = some ']' then
    match readField? field, readLast? r.next.next with
    | some field, some threshold => some ⟨target?, span?, some field, threshold⟩
    | _, _ => none
  else none

/-- Reads the rest of a directive after its opening bracket. -/
def readAfterBracket? (target? : Option String) (r : Rest) : Option LogDirective :=
  let (span, r) := r.cut [']', '\x7b']
  match r.peek? with
  | none => none
  | some c =>
    if c = ']' then
      (readLast? r.next).map fun threshold => ⟨target?, some span, none, threshold⟩
    else readAfterBrace? target? (if span.isEmpty then none else some span) r.next

/-- Whether a target may start with a character. -/
def mayStartTarget (c : Char) : Bool :=
  Text.isAlphanumeric c || c = '-' || c = ':' || c = '_'

/-- Reads a directive that consists of a threshold or of a target alone. -/
def ofWord (cs : List Char) : LogDirective :=
  match readThreshold? cs with
  | some threshold => ⟨none, none, none, threshold⟩
  | none => ⟨some (String.ofList cs), none, none, everything⟩

/-- Reads a directive. -/
def read? (cs : List Char) : Option LogDirective :=
  let r := Rest.ofText cs
  match r.peek? with
  | none => none
  | some c =>
    if c = '[' then readAfterBracket? none r.next
    else if mayStartTarget c then
      let (target, r) := r.cut ['=', '[']
      match r.peek? with
      | none => some (ofWord cs)
      | some c =>
        if c = '[' then readAfterBracket? (some target) r.next
        else (readAssigned? r.next).map fun threshold => ⟨some target, none, none, threshold⟩
    else none

end LogDirective

end RaftAdmin
