import RaftAdmin.Json.Value

/-!
# Writing JSON

The compact form: no blanks between tokens, and only quotes, backslashes and control characters are
escaped in literals.
-/

namespace RaftAdmin.Json

/-- The lower-case hexadecimal digit of a value below sixteen. -/
def hexChar (n : Nat) : Char :=
  if n < 10 then Char.ofNat ('0'.toNat + n) else Char.ofNat ('a'.toNat + n - 10)

/-- A character as a literal writes it. -/
def escape (c : Char) : List Char :=
  if c = '"' then ['\\', '"']
  else if c = '\\' then ['\\', '\\']
  else if c = '\n' then ['\\', 'n']
  else if c = '\r' then ['\\', 'r']
  else if c = '\t' then ['\\', 't']
  else if c.toNat = 8 then ['\\', 'b']
  else if c.toNat = 12 then ['\\', 'f']
  else if c.toNat < 0x20 then ['\\', 'u', '0', '0', hexChar (c.toNat / 16), hexChar (c.toNat % 16)]
  else [c]

/-- A literal; one that denotes no text is written empty. -/
def writeLiteral (t : Literal) : List Char :=
  '"' :: ((t.getD "").toList.flatMap escape ++ ['"'])

/-- A number. -/
def writeNumber (n : Number) : List Char :=
  (if n.negative then ['-'] else []) ++ Text.digits n.whole ++ n.tail

mutual

/-- The characters of a value. -/
def write : Value → List Char
  | .null => "null".toList
  | .bool true => "true".toList
  | .bool false => "false".toList
  | .number n => writeNumber n
  | .text t => writeLiteral t
  | .array items => '[' :: writeItems items
  | .object members => '\x7b' :: writeMembers members

/-- The items of an array after its opening bracket. -/
def writeItems : List Value → List Char
  | [] => [']']
  | [v] => write v ++ [']']
  | v :: w :: vs => write v ++ ',' :: writeItems (w :: vs)

/-- The members of an object after its opening brace. -/
def writeMembers : List (Literal × Value) → List Char
  | [] => ['\x7d']
  | [(name, v)] => writeLiteral name ++ ':' :: (write v ++ ['\x7d'])
  | (name, v) :: m :: ms => writeLiteral name ++ ':' :: (write v ++ ',' :: writeMembers (m :: ms))

end

/-- The text of a value. -/
def render (v : Value) : String := String.ofList (write v)

end RaftAdmin.Json
