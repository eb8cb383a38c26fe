import RaftAdmin.Text.Listing

/-!
# Failed calls

A call to the cluster that got no answer: the peer refused the connection, the connection broke, or
what came back could not be understood.
-/

namespace RaftAdmin

/-- Why a call got no answer: what was attempted, and the causes from the outermost inwards. -/
structure RpcFailure where
  /-- The text that is shown alone. -/
  text : String
  /-- The texts of the causes. -/
  causes : List String
deriving DecidableEq, Repr, Inhabited

/-- The failure with a text and no further cause. -/
def RpcFailure.plain (text : String) : RpcFailure := ⟨text, []⟩

/-- The text and all causes, from the outermost inwards. -/
def RpcFailure.full (f : RpcFailure) : String := Text.joinWith ": " (f.text :: f.causes)

end RaftAdmin
