import RaftAdmin.Text.Numeral
import RaftAdmin.Text.Split

/-!
# Peer addresses

A peer address is a host and a port, written `HOST:PORT`.

## The model

The last colon of a text separates the port from the host, so that a host may contain colons (an
IPv6 address in brackets does). Blanks around the whole text are dropped, blanks inside are kept.
The port is a numeral below 65536; a plus sign and leading zeros are read but not written back.
-/

namespace RaftAdmin

/-- A host and a port. -/
structure PeerAddress where
  /-- The host, as the operator or the cluster names it. -/
  host : String
  /-- The port. -/
  port : UInt16
deriving DecidableEq, Repr, Inhabited

namespace PeerAddress

/-- What is wrong with a text that is no address. -/
inductive Flaw where
  /-- There is no colon. -/
  | noPort
  /-- Nothing stands before the last colon. -/
  | emptyHost
  /-- What follows the last colon is no port number. -/
  | badPort
deriving DecidableEq, Repr

/-- The message for the operator. -/
def Flaw.message : Flaw → String
  | noPort => "expected HOST:PORT"
  | emptyHost => "host is empty"
  | badPort => "port is not a number between 0 and 65535"

/-- The form `HOST:PORT`. -/
def text (a : PeerAddress) : String := a.host ++ ":" ++ Text.numeral a.port.toNat

instance : ToString PeerAddress := ⟨text⟩

/-- Reads an address from a trimmed text. -/
def readTrimmed (cs : List Char) : Except Flaw PeerAddress :=
  match Text.cutLast (· == ':') cs with
  | none => .error .noPort
  | some (host, port) =>
    if host.isEmpty then .error .emptyHost
    else
      match Text.readNat? 65536 port with
      | none => .error .badPort
      | some n => .ok { host := String.ofList host, port := UInt16.ofNat n }

/-- Reads an address; blanks around it are dropped. -/
def read (s : String) : Except Flaw PeerAddress := readTrimmed (Text.trimChars s.toList)

end PeerAddress

end RaftAdmin
