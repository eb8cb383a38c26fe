import RaftAdmin.Error
import RaftAdmin.Script.Basic

/-!
# Acts

An act is a script that may fail with an error of the command. This module has the acts that all
commands are made of.
-/

namespace RaftAdmin

/-- A script that ends with a value or with an error. -/
abbrev Act := ExceptT AdminError Script

namespace Act

/-- An act that does nothing but report a result. -/
def ofExcept {α : Type} (result : Except AdminError α) : Act α := ExceptT.mk (pure result)

/-- An action that cannot fail. -/
def perform (action : Action) : Act action.Reply := ExceptT.lift (Script.call action)

/-- Reports an event. -/
def log (event : LogEvent) : Act Unit := perform (.log event)

/-- Reports events in order. -/
def logAll : List LogEvent → Act Unit
  | [] => pure ()
  | event :: events => do
    log event
    logAll events

/-- The result of a call; without an answer the act fails. -/
def answered {α : Type} : Except RpcFailure α → Act α
  | .ok a => pure a
  | .error failure => throw (.internal failure)

/-- Writes a line to the operator; the act fails if the stream does. -/
def say (fragments : List String) : Act Unit := do
  match ← perform (.print (fragments ++ ["\n"])) with
  | .ok () => pure ()
  | .error cause => throw (.output cause)

/-- Runs an act over a connection to a group, which is closed however the act ends. -/
def connected {α : Type} (group : Group) (body : Act α) : Act α := do
  answered (← perform (.connect group))
  let result ← ExceptT.lift body.run
  perform (.disconnect group)
  ofExcept result

end Act

/-- Writes a line to the operator and ignores a failing stream. -/
def Script.mention (fragments : List String) : Script Unit := do
  let _ ← Script.call (.print (fragments ++ ["\n"]))
  pure ()

end RaftAdmin
