/-
# Log records

A record is one thing that happened, at a level, from one part of the library, with
named values. It is written on one line.
-/
import Errand.Text.Quoted

namespace Errand.Log

/-- How much a record matters. -/
inductive Level where
  | error
  | warn
  | info
  | debug
  | trace
  deriving DecidableEq, Repr

/-- The place of a level in the order from the gravest on. -/
def Level.rank : Level → Nat
  | .error => 1
  | .warn => 2
  | .info => 3
  | .debug => 4
  | .trace => 5

/-- A level as it is written at the start of a line. -/
def Level.name : Level → String
  | .error => "ERROR"
  | .warn => "WARN"
  | .info => "INFO"
  | .debug => "DEBUG"
  | .trace => "TRACE"

/-- The parts of the library that write records. -/
inductive Source where
  | local
  | session
  | backend
  | selector
  /-- The command line program. -/
  | program
  deriving DecidableEq, Repr

/-- The target that a filter sees and a line shows. -/
def Source.target : Source → String
  | .local => "fleet_shell::execution::local"
  | .session => "fleet_shell::remote::session"
  | .backend => "fleet_shell::backend"
  | .selector => "fleet_shell::backend::selector"
  | .program => "fleet_shell"

/-- A named value of a record, as it is written. -/
structure Field where
  name : String
  value : Text
  deriving DecidableEq, Repr

/-- One thing that happened. -/
structure Record where
  level : Level
  source : Source
  message : String
  fields : List Field
  deriving DecidableEq, Repr

/-- A field as it follows the message. -/
def Field.text (field : Field) : Text :=
  ' ' :: field.name.toList ++ '=' :: field.value

/-- The line of a record. -/
def Record.line (record : Record) : Text :=
  record.level.name.toList ++ ' ' :: record.source.target.toList ++ ": ".toList ++
    record.message.toList ++ record.fields.flatMap Field.text

end Errand.Log
