import RaftAdmin.Log.Event
import RaftAdmin.Rpc.Failure
import RaftAdmin.Text.Numeral

/-!
# Asking one candidate after the other

While a group is looked for, any single peer may be down. The candidates are asked in order until
one yields a value; one that fails or has nothing to say is logged and skipped.
-/

namespace RaftAdmin.Retry

/-- The event for a candidate that had nothing to say. -/
def silent (index : Nat) (name : String) : LogEvent :=
  .debug .retry ("Candidate " ++ Text.numeral index ++ " (" ++ name ++ ") returned nothing")

/-- The event for a candidate that failed. -/
def failed (index : Nat) (name : String) (failure : RpcFailure) : LogEvent :=
  .warn .retry ("Candidate " ++ Text.numeral index ++ " (" ++ name ++ ") failed: " ++ failure.full)

/-- The first value that asking the candidates yields, counting them from `index`. -/
def firstAnswer {m : Type → Type} [Monad m] {α β : Type} (report : LogEvent → m Unit)
    (name : α → String) (ask : α → m (Except RpcFailure (Option β))) :
    Nat → List α → m (Option β)
  | _, [] => pure none
  | index, c :: cs => do
    match ← ask c with
    | .ok (some value) => pure (some value)
    | .ok none =>
      report (silent index (name c))
      firstAnswer report name ask (index + 1) cs
    | .error failure =>
      report (failed index (name c) failure)
      firstAnswer report name ask (index + 1) cs

end RaftAdmin.Retry
