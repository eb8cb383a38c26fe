import RaftAdmin.Yaml.Tree

/-!
# From tokens to trees

The grammar of documents over tokens.

## The model

Every rule takes the tokens from where it starts and gives a node with the tokens after it. Rules
that follow each other pass on a fuel that the number of tokens bounds. A text holds at most one
document, and directives come before it.
-/

namespace RaftAdmin.Yaml.Grammar

/-- A node that refers to anchors by their names. -/
abbrev Node := Tree String

/-- What the handles of tags stand for. -/
abbrev Handles := List (String × Tag)

/-- The handles that need no directive. -/
def standardHandles : Handles := [("!", .bang), ("!!", .languageFront)]

/-- The tag that is meant by a written one. -/
def resolveTag (handles : Handles) (t : WrittenTag) : Option Tag :=
  if t.handle.isEmpty then some t.suffix
  else (handles.lookup t.handle).map t.suffix.after

/-- Reads the anchor and the tag of a node, in either order. -/
def readProperties (handles : Handles) : List Token → Option (Properties × List Token)
  | .anchor a :: .tag t :: ts => (resolveTag handles t).map fun t => (⟨some a, some t⟩, ts)
  | .tag t :: .anchor a :: ts => (resolveTag handles t).map fun t => (⟨some a, some t⟩, ts)
  | .anchor a :: ts => some (⟨some a, none⟩, ts)
  | .tag t :: ts => (resolveTag handles t).map fun t => (⟨none, some t⟩, ts)
  | ts => some (.bare, ts)

/-- Whether a node starts with a token in a block mapping. -/
def startsInMapping : List Token → Bool
  | .key :: _ => false
  | .value :: _ => false
  | .blockEnd :: _ => false
  | _ => true

/-- Whether a node starts with a token after a dash. -/
def startsAfterItem : List Token → Bool
  | .item :: _ => false
  | .blockEnd :: _ => false
  | _ => true

/-- Whether a node starts with a token after a dash that is not indented. -/
def startsAfterFlatItem (ts : List Token) : Bool := startsInMapping ts && startsAfterItem ts

/-- Whether a node starts with a token after a colon in a flow collection that `close` ends. -/
def startsInFlow (close : Token) : List Token → Bool
  | .comma :: _ => false
  | t :: _ => t ≠ close
  | [] => true

/-- Whether a node starts with a token after the key of a flow collection was introduced. -/
def startsFlowKey (close : Token) (ts : List Token) : Bool :=
  startsInFlow close ts && ts.head? ≠ some .value

/-- Where a node stands. -/
structure Place where
  /-- Whether block collections may stand there. -/
  inBlock : Bool
  /-- Whether items may stand there without being indented. -/
  flatItems : Bool

/-- After a dash. -/
def Place.item : Place := ⟨true, false⟩

/-- In a block mapping. -/
def Place.entry : Place := ⟨true, true⟩

/-- In a flow collection. -/
def Place.flow : Place := ⟨false, false⟩

mutual

/-- A node. -/
def node (handles : Handles) : Nat → Place → List Token → Option (Node × List Token)
  | 0, _, _ => none
  | _ + 1, _, .alias name :: ts => some (.alias name, ts)
  | fuel + 1, place, ts =>
    match readProperties handles ts with
    | none => none
    | some (p, ts) =>
      match ts with
      | .scalar isPlain text :: rest => some (.scalar p isPlain text, rest)
      | .openSequence :: rest =>
        (flowSequence handles fuel true rest).map fun (items, rest) => (.sequence p items, rest)
      | .openMapping :: rest =>
        (flowMapping handles fuel true rest).map fun (entries, rest) => (.mapping p entries, rest)
      | .item :: _ =>
        if place.flatItems then
          (flatSequence handles fuel ts).map fun (items, rest) => (.sequence p items, rest)
        else emptyNode p ts
      | .blockSequence :: rest =>
        if place.inBlock then
          (blockSequence handles fuel rest).map fun (items, rest) => (.sequence p items, rest)
        else emptyNode p ts
      | .blockMapping :: rest =>
        if place.inBlock then
          (blockMapping handles fuel rest).map fun (entries, rest) => (.mapping p entries, rest)
        else emptyNode p ts
      | _ => emptyNode p ts

/-- A node of which nothing but properties is written; there must be any. -/
def emptyNode (p : Properties) (ts : List Token) : Option (Node × List Token) :=
  if p = .bare then none else some (.scalar p true "", ts)

/-- A node, or the empty scalar if none starts here. -/
def optionalNode (handles : Handles) :
    Nat → Place → (List Token → Bool) → List Token → Option (Node × List Token)
  | 0, _, _, _ => none
  | fuel + 1, place, starts, ts =>
    if starts ts then node handles fuel place ts else some (.empty, ts)

/-- The items of an indented sequence. -/
def blockSequence (handles : Handles) : Nat → List Token → Option (List Node × List Token)
  | 0, _ => none
  | fuel + 1, .item :: ts =>
    match optionalNode handles fuel .item startsAfterItem ts with
    | none => none
    | some (t, ts) =>
      (blockSequence handles fuel ts).map fun (items, ts) => (t :: items, ts)
  | _ + 1, .blockEnd :: ts => some ([], ts)
  | _ + 1, _ => none

/-- The items of a sequence that is not indented; whatever is no item ends it. -/
def flatSequence (handles : Handles) : Nat → List Token → Option (List Node × List Token)
  | 0, _ => none
  | fuel + 1, .item :: ts =>
    match optionalNode handles fuel .item startsAfterFlatItem ts with
    | none => none
    | some (t, ts) => (flatSequence handles fuel ts).map fun (items, ts) => (t :: items, ts)
  | _ + 1, ts => some ([], ts)

/-- The value of a block mapping, which may be missing. -/
def blockValue (handles : Handles) : Nat → List Token → Option (Node × List Token)
  | 0, _ => none
  | fuel + 1, .value :: ts => optionalNode handles fuel .entry startsInMapping ts
  | _ + 1, ts => some (.empty, ts)

/-- The entries of a block mapping. -/
def blockMapping (handles : Handles) : Nat → List Token → Option (List (Node × Node) × List Token)
  | 0, _ => none
  | fuel + 1, .key :: ts =>
    match optionalNode handles fuel .entry startsInMapping ts with
    | none => none
    | some (k, ts) =>
      match blockValue handles fuel ts with
      | none => none
      | some (v, ts) =>
        (blockMapping handles fuel ts).map fun (entries, ts) => ((k, v) :: entries, ts)
  | _ + 1, .blockEnd :: ts => some ([], ts)
  | _ + 1, _ => none

/-- The value of a flow collection that `close` ends, which may be missing. -/
def flowValue (handles : Handles) (close : Token) : Nat → List Token → Option (Node × List Token)
  | 0, _ => none
  | fuel + 1, .value :: ts => optionalNode handles fuel .flow (startsInFlow close) ts
  | _ + 1, ts => some (.empty, ts)

/-- The only key of a mapping in a flow sequence. A token that stands for its absence is lost. -/
def onlyKey (handles : Handles) : Nat → List Token → Option (Node × List Token)
  | 0, _ => none
  | fuel + 1, ts =>
    if startsFlowKey .closeSequence ts then node handles fuel .flow ts
    else some (.empty, ts.drop 1)

/-- An item of a flow sequence, which may be a mapping with a single entry. -/
def flowItem (handles : Handles) : Nat → List Token → Option (Node × List Token)
  | 0, _ => none
  | fuel + 1, .key :: ts =>
    match onlyKey handles fuel ts with
    | none => none
    | some (k, ts) =>
      (flowValue handles .closeSequence fuel ts).map fun (v, ts) => (.mapping .bare [(k, v)], ts)
  | fuel + 1, ts => node handles fuel .flow ts

/-- The items of a flow sequence; a comma may follow the last one. -/
def flowSequence (handles : Handles) :
    Nat → Bool → List Token → Option (List Node × List Token)
  | 0, _, _ => none
  | _ + 1, _, .closeSequence :: ts => some ([], ts)
  | _ + 1, false, .comma :: .closeSequence :: ts => some ([], ts)
  | fuel + 1, isFirst, ts =>
    match if isFirst then some ts else afterComma ts with
    | none => none
    | some ts =>
      match flowItem handles fuel ts with
      | none => none
      | some (t, ts) =>
        (flowSequence handles fuel false ts).map fun (items, ts) => (t :: items, ts)

/-- What follows the comma between two items. -/
def afterComma : List Token → Option (List Token)
  | .comma :: ts => some ts
  | _ => none

/-- An entry of a flow mapping, of which key or value may be missing. -/
def flowEntry (handles : Handles) : Nat → List Token → Option ((Node × Node) × List Token)
  | 0, _ => none
  | fuel + 1, .key :: ts =>
    match optionalNode handles fuel .flow (startsFlowKey .closeMapping) ts with
    | none => none
    | some (k, ts) => (flowValue handles .closeMapping fuel ts).map fun (v, ts) => ((k, v), ts)
  | fuel + 1, ts => (node handles fuel .flow ts).map fun (k, ts) => ((k, .empty), ts)

/-- The entries of a flow mapping; a comma may follow the last one. -/
def flowMapping (handles : Handles) :
    Nat → Bool → List Token → Option (List (Node × Node) × List Token)
  | 0, _, _ => none
  | _ + 1, _, .closeMapping :: ts => some ([], ts)
  | _ + 1, false, .comma :: .closeMapping :: ts => some ([], ts)
  | fuel + 1, isFirst, ts =>
    match if isFirst then some ts else afterComma ts with
    | none => none
    | some ts =>
      match flowEntry handles fuel ts with
      | none => none
      | some (e, ts) =>
        (flowMapping handles fuel false ts).map fun (entries, ts) => (e :: entries, ts)

end

/-! ### Documents -/

/-- Whether a version is one that can be read. -/
def isKnownVersion (major minor : Nat) : Bool := major = 1 && (minor = 1 || minor = 2)

/-- Reads directives: what they say about handles, and the tokens after them. -/
def directives : Bool → Handles → List Token → Option (Handles × List Token)
  | hasVersion, handles, .version major minor :: ts =>
    if hasVersion || !isKnownVersion major minor then none else directives true handles ts
  | hasVersion, handles, .handle name meaning :: ts =>
    if (handles.lookup name).isSome then none
    else directives hasVersion ((name, meaning) :: handles) ts
  | _, handles, ts => some (handles, ts)

/-- Whether nothing but marks of the end of a document is left. -/
def isOver (ts : List Token) : Bool := ts.all fun t => t = .documentEnd

/-- The content of a document after its start was marked. -/
def content (handles : Handles) (ts : List Token) : Option (Node × List Token) :=
  match ts with
  | [] => some (.empty, ts)
  | .documentEnd :: _ => some (.empty, ts)
  | .documentStart :: _ => some (.empty, ts)
  | .version _ _ :: _ => some (.empty, ts)
  | .handle _ _ :: _ => some (.empty, ts)
  | _ => node handles (4 * ts.length + 4) .item ts

/-- The only document of some tokens, if they hold any at all. -/
def document (ts : List Token) : Option (Option Node) :=
  match directives false [] ts with
  | none => none
  | some (handles, rest) =>
    let handles := handles ++ standardHandles
    let read? :=
      match rest with
      | .documentStart :: more => content handles more
      | _ => if rest.length = ts.length then node handles (4 * ts.length + 4) .item ts else none
    match read? with
    | none => none
    | some (tree, rest) => if isOver rest then some (some tree) else none

/-- The only document of some tokens; without any tokens there is none. -/
def documentOf (ts : List Token) : Option (Option Node) :=
  if ts.isEmpty then some none else document ts

end RaftAdmin.Yaml.Grammar
