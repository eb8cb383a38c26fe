import RaftAdmin.Text.Numeral

/-!
# Patterns

Which texts are regular expressions.

## The model

A pattern is read from left to right. What is known at each place is how many groups are open and
whether there is something that a repetition could repeat. Counted repetitions, look-around and
boundaries of words are not supported, and neither are references to groups.
-/

namespace RaftAdmin.Pattern

/-! ### Escapes -/

/-- What a single character of a class or an escape stands for. -/
inductive Atom where
  /-- A character. -/
  | char (code : Nat)
  /-- A class of characters. -/
  | charClass
  /-- A place in the text. -/
  | place
deriving DecidableEq, Repr

/-- Whether a number is that of a character. -/
def isCharacter (n : Nat) : Bool := n < 0xD800 || (0xDFFF < n && n < 0x110000)

/-- Reads a character that is written as so many hexadecimal digits. -/
def readCode (count : Nat) (cs : List Char) : Option (Atom × List Char) :=
  if cs.length < count then none
  else
    ((Text.valueFrom? 16 0 (cs.take count)).filter isCharacter).map fun n =>
      (.char n, cs.drop count)

/-- The code of a control character with a letter of its own. -/
def control? (c : Char) : Option Nat :=
  [('a', 7), ('t', 9), ('n', 10), ('v', 11), ('f', 12), ('r', 13)].lookup c

/-- Whether a character means itself after a backslash. -/
def isEscapable (c : Char) : Bool :=
  c.toNat < 0x80 && !c.isAlphanum && c ≠ '<' && c ≠ '>'

/-- Reads what follows a backslash. -/
def readEscape : List Char → Option (Atom × List Char)
  | [] => none
  | c :: cs =>
    if c = 'x' then readCode 2 cs
    else if c = 'u' then readCode 4 cs
    else if c = 'U' then readCode 8 cs
    else if "dswDSW".toList.contains c then some (.charClass, cs)
    else if c = 'p' ∨ c = 'P' then
      match cs with
      | category :: cs =>
        if "CLMNPSZclmnpsz".toList.contains category then some (.charClass, cs) else none
      | [] => none
    else if c = 'A' ∨ c = 'z' then some (.place, cs)
    else
      match control? c with
      | some n => some (.char n, cs)
      | none => if isEscapable c then some (.char c.toNat, cs) else none

/-! ### Classes -/

/-- Reads a member of a class. -/
def readMember : List Char → Option (Atom × List Char)
  | [] => none
  | '\\' :: cs => (readEscape cs).filter fun a => a.1 ≠ .place
  | c :: cs => some (.char c.toNat, cs)

/-- Whether two members of a class make a range. -/
def isRange : Atom → Atom → Bool
  | .char m, .char n => m ≤ n
  | _, _ => false

/-- Reads a member of a class, or a range of characters. -/
def skipMember (cs : List Char) : Option (List Char) :=
  match readMember cs with
  | none => none
  | some (first, '-' :: c :: cs) =>
    if c = ']' || c = '-' then some ('-' :: c :: cs)
    else
      match readMember (c :: cs) with
      | some (last, cs) => if isRange first last then some cs else none
      | none => none
  | some (_, cs) => some cs

/-- The text after the start of a class: what excludes its members, and what is a member although
it would have another meaning further on. -/
def skipClassStart (cs : List Char) : List Char :=
  let cs :=
    match cs with
    | '^' :: cs => cs
    | cs => cs
  match cs with
  | ']' :: cs => cs
  | cs => cs.dropWhile (· == '-')

/-- Whether an operator on classes is at the start of a text. -/
def startsWithOperator : List Char → Bool
  | c :: d :: _ => c = d && (c = '&' || c = '-' || c = '~')
  | _ => false

/-- Reads the members of a class up to the bracket that closes the outermost one. -/
def skipClass : Nat → Nat → List Char → Option (List Char)
  | 0, _, _ => none
  | _ + 1, _, [] => none
  | fuel + 1, depth, c :: cs =>
    if c = '[' then skipClass fuel (depth + 1) (skipClassStart cs)
    else if c = ']' then
      match depth with
      | 0 => some cs
      | depth + 1 => skipClass fuel depth cs
    else if startsWithOperator (c :: cs) then skipClass fuel depth (cs.drop 1)
    else
      match skipMember (c :: cs) with
      | some cs => skipClass fuel depth cs
      | none => none

/-! ### Groups -/

/-- Whether letters are flags: each at most once, and not without effect. -/
def areFlags (letters : List Char) : Bool :=
  let flags := letters.filter (· ≠ '-')
  flags.all "imsUuxR".toList.contains && flags.eraseDups.length = flags.length
    && letters.length ≤ flags.length + 1 && letters.getLast? ≠ some '-'

/-- Whether a text is the name of a group. -/
def isGroupName : List Char → Bool
  | [] => false
  | c :: cs =>
    (c.isAlpha || c = '_') && cs.all fun c => c.isAlphanum || "_.[]".toList.contains c

/-- What opens after a parenthesis and a question mark. -/
inductive Opening where
  /-- A group. -/
  | group
  /-- No group; what follows is read in another way. -/
  | flags

/-- Reads what follows a parenthesis and a question mark. -/
def readOpening (cs : List Char) : Option (Opening × List Char) :=
  let named := if cs.head? = some 'P' then cs.drop 1 else cs
  match named with
  | '<' :: cs =>
    match cs.dropWhile (· ≠ '>') with
    | _ :: rest => if isGroupName (cs.takeWhile (· ≠ '>')) then some (.group, rest) else none
    | [] => none
  | _ =>
    let letters := cs.takeWhile fun c => c ≠ ':' && c ≠ ')'
    match cs.dropWhile fun c => c ≠ ':' && c ≠ ')' with
    | ':' :: rest => if areFlags letters then some (.group, rest) else none
    | _ :: rest => if areFlags letters && !letters.isEmpty then some (.flags, rest) else none
    | [] => none

/-! ### Patterns -/

/-- Reads the rest of a pattern inside of `depth` groups; `mayRepeat` says whether something stands
before it that may be repeated. -/
def isRest : Nat → Nat → Bool → List Char → Bool
  | 0, _, _, _ => false
  | _ + 1, depth, _, [] => depth = 0
  | fuel + 1, depth, mayRepeat, c :: cs =>
    if c = '*' || c = '+' || c = '?' then
      mayRepeat && isRest fuel depth true (if cs.head? = some '?' then cs.drop 1 else cs)
    else if c = '\x7b' then false
    else if c = '|' then isRest fuel depth false cs
    else if c = ')' then
      match depth with
      | 0 => false
      | depth + 1 => isRest fuel depth true cs
    else if c = '(' then
      match cs with
      | '?' :: cs =>
        match readOpening cs with
        | some (.group, cs) => isRest fuel (depth + 1) false cs
        | some (.flags, cs) => isRest fuel depth false cs
        | none => false
      | _ => isRest fuel (depth + 1) false cs
    else if c = '[' then
      match skipClass (cs.length + 1) 0 (skipClassStart cs) with
      | some cs => isRest fuel depth true cs
      | none => false
    else if c = '\\' then
      match readEscape cs with
      | some (_, cs) => isRest fuel depth true cs
      | none => false
    else isRest fuel depth true cs

/-- Whether a text is a pattern. -/
def isWellFormed (cs : List Char) : Bool := isRest (cs.length + 1) 0 false cs

end RaftAdmin.Pattern
