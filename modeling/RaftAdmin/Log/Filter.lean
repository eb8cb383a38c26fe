import RaftAdmin.Log.Directive

/-!
# Log filters

A filter says which events are logged.

## The model

A filter is a list of directives separated by commas, and empty ones do not count. Of the directives
that concern an event the most specific one decides: the one with the longest target, then one with
a field, and of two equals the later one. If no directive concerns an event, it is not logged. If
any part of a text is no directive the text is no filter, and the program then logs warnings.
-/

namespace RaftAdmin

/-- Directives in the order of the text. -/
structure LogFilter where
  /-- The directives. -/
  directives : List LogDirective
deriving DecidableEq, Repr

namespace LogFilter

/-- Reads a filter; empty parts of the text are skipped. -/
def read? (s : String) : Option LogFilter :=
  let parts := (Text.splitBy (· == ',') s.toList).filter (!·.isEmpty)
  (parts.mapM LogDirective.read?).map LogFilter.mk

/-- The filter that lets warnings and errors through. -/
def warnings : LogFilter := ⟨[⟨none, none, none, Level.warn.rank⟩]⟩

/-- The filter of a text, which lets warnings through if the text is none. -/
def ofText (s : String) : LogFilter := (read? s).getD warnings

/-- The last of the most specific directives. -/
def mostSpecific? (ds : List LogDirective) : Option LogDirective :=
  ds.foldl
    (fun best? d =>
      match best? with
      | some best => if best.atMost d then some d else some best
      | none => some d)
    none

/-- The directive that decides about an event. -/
def deciding? (f : LogFilter) (e : LogEvent) : Option LogDirective :=
  mostSpecific? (f.directives.filter (·.concerns e))

/-- Whether an event is logged. -/
def passes (f : LogFilter) (e : LogEvent) : Bool :=
  match f.deciding? e with
  | some d => e.level.rank ≤ d.threshold
  | none => false

end LogFilter

end RaftAdmin
