/-!
# The operator's stream

A stream takes text until it breaks. A stream that breaks does so after a number of lines: once
that many have been written, every further write fails.

## The model

Text comes in fragments, and a fragment is written as a whole or not at all. Writing nothing never
fails.
-/

namespace RaftAdmin

/-- A stream with what was written to it. -/
structure Sink where
  /-- The number of lines after which the stream breaks, if it ever does. -/
  limit? : Option Nat
  /-- What was written. -/
  written : String
deriving DecidableEq, Repr, Inhabited

namespace Sink

/-- A stream to which nothing was written yet. -/
def fresh (limit? : Option Nat) : Sink := ⟨limit?, ""⟩

/-- What a broken stream says. -/
def brokenMessage : String := "sink is full"

/-- The number of lines that were written. -/
def lineCount (s : Sink) : Nat := s.written.toList.count '\n'

/-- Whether the stream has broken. -/
def isBroken (s : Sink) : Bool :=
  match s.limit? with
  | some n => n ≤ s.lineCount
  | none => false

/-- Writes fragments in order up to the first that fails. -/
def write : List String → Sink → Except String Unit × Sink
  | [], s => (.ok (), s)
  | f :: fs, s =>
    if f.isEmpty then write fs s
    else if s.isBroken then (.error brokenMessage, s)
    else write fs { s with written := s.written ++ f }

end Sink

end RaftAdmin
