/-
# Log filters

A filter is a list of directives separated by commas. Of the directives that apply to a
record one decides whether it is written: the one with the longest target, and among
those one for a field before one without. A record to which none applies is not written.
-/
import Errand.Log.Directive

namespace Errand.Log

/-- Which records are written. -/
structure Filter where
  directives : List Directive
  deriving DecidableEq, Repr

namespace Filter

/-- Only the gravest records, whatever their target. -/
def gravest : Filter := ⟨[⟨[], none, .upTo .error⟩]⟩

/-- The filter that several readings make together. Without any it keeps the gravest
records; directives for spans alone keep none. -/
def ofReadings (readings : List Directive.Reading) : Filter :=
  let directives := readings.filterMap fun
    | .records directive => some directive
    | .spans => none
  if readings.isEmpty then gravest else ⟨directives⟩

/-- The filter that a text writes, if every part of it can be read. Empty parts say
nothing. -/
def read? (text : Text) : Option Filter :=
  (((text.cutAll ',').filter (!·.isEmpty)).mapM Directive.read?).map ofReadings

/-- The filter that holds where no other is given or the given one cannot be read. -/
def fallback : Filter := ⟨[⟨"fleet_shell".toList, none, .upTo .info⟩]⟩

/-- The filter for a level taken from a configuration: a bare level is meant for this
library alone. -/
def ofLevel (level : Text) : Filter :=
  let text := if level.contains '=' || level.contains ',' then level
    else "fleet_shell=".toList ++ level
  (read? text).getD fallback

/-- The filter of an optional variable. -/
def ofVariable (value : Option Text) : Filter := (value.bind read?).getD fallback

/-- The one of two directives that decides. -/
private def stronger (best : Option Directive) (directive : Directive) : Option Directive :=
  match best with
  | none => some directive
  | some other => if other.yieldsTo directive then some directive else some other

/-- The directive that decides about a record. -/
def decisive? (filter : Filter) (record : Record) : Option Directive :=
  (filter.directives.filter (·.applies record)).foldl stronger none

/-- Whether a record is written. -/
def admits (filter : Filter) (record : Record) : Bool :=
  match filter.decisive? record with
  | none => false
  | some directive => directive.threshold.admits record.level

/-- The lines of the records that are written. A record whose values hold line breaks
takes several. -/
def lines (filter : Filter) (records : List Record) : List Text :=
  (records.filter filter.admits).flatMap fun record => Text.lines (record.line ++ ['\n'])

end Filter

end Errand.Log
