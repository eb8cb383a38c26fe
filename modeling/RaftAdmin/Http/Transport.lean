import RaftAdmin.Http.Status
import RaftAdmin.Json.Reader
import RaftAdmin.Json.Value
import RaftAdmin.Peer.Address
import RaftAdmin.Rpc.Failure

/-!
# Requests and responses

A transport carries requests to peers and brings back what they answer.

## The model

Only finitely many addresses answer at all: a transport lists them, and a request to any other
address fails. That is what makes following hints from peer to peer come to an end.
-/

namespace RaftAdmin.Http

/-- What a request does. -/
inductive Method where
  /-- It asks. -/
  | get
  /-- It sends a body. -/
  | post
deriving DecidableEq, Repr

/-- The name of the method. -/
def Method.text : Method → String
  | get => "GET"
  | post => "POST"

/-- A request. -/
structure Request where
  /-- What it does. -/
  method : Method
  /-- The scheme of the URL. -/
  scheme : String
  /-- The peer it goes to. -/
  address : PeerAddress
  /-- The path below the root of the interface. -/
  path : String
  /-- The body, if one is sent. -/
  body? : Option Json.Value
  /-- The milliseconds that the response may take. -/
  timeout : Nat

/-- The URL of a request. -/
def Request.url (r : Request) : String :=
  r.scheme ++ "://" ++ r.address.text ++ "/v1" ++ r.path

/-- The method and the URL of a request. -/
def Request.text (r : Request) : String := r.method.text ++ " " ++ r.url

/-- What becomes of a request. -/
inductive Response where
  /-- No response came. -/
  | failed
  /-- The response broke off. -/
  | broken
  /-- A response with a status and a body. -/
  | complete (status : Nat) (body : String)
deriving DecidableEq, Repr

/-- A network with states `τ`. -/
structure Transport (τ : Type) where
  /-- The addresses that may answer. -/
  hosts : List PeerAddress
  /-- Sends a request. -/
  send : Request → τ → Response × τ
  /-- No other address answers. -/
  silent : ∀ r s, r.address ∉ hosts → (send r s).1 = .failed

/-- The network in which no request gets through. -/
def Transport.unreachable : Transport Unit := ⟨[], fun _ s => (.failed, s), fun _ _ _ => rfl⟩

/-- Reads the body of a response. A status that is no success does no harm if the body can be
read. -/
def decode {α : Type} (read : Json.Value → Option α) (r : Request) : Response → Except RpcFailure α
  | .failed => .error (.plain r.text)
  | .broken => .error (.plain ("reading response of " ++ r.url))
  | .complete status body =>
    match (Json.read body).bind read with
    | some a => .ok a
    | none =>
      if isSuccess status then .error (.plain ("malformed response from " ++ r.url))
      else .error (.plain (r.url ++ " returned HTTP " ++ statusText status))

end RaftAdmin.Http
