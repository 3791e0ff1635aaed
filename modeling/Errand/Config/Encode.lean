/-
# Writing a configuration

A configuration is written as one JSON object without gaps, with all values but the
password, which is never written.
-/
import Errand.Config.Basic
import Errand.Json.Quoted

namespace Errand.Config

open Json

/-- A value that may be missing. -/
def optionalJson {α : Type} (write : α → Text) : Option α → Text
  | none => "null".toList
  | some value => write value

/-- A number. -/
def natJson (n : Nat) : Text := Decimal.ofNat n

/-- Members between braces. -/
def objectJson (members : List (String × Text)) : Text :=
  ['\x7b'] ++ Text.join [','] (members.map fun (name, value) =>
    quoted name.toList ++ [':'] ++ value) ++ ['\x7d']

/-- The JSON text of the section on where commands run. -/
def BackendSection.toJson (settings : BackendSection) : Text :=
  objectJson [("host", optionalJson quoted settings.host),
    ("user", optionalJson quoted settings.user), ("port", natJson settings.port.toNat)]

/-- The JSON text of the section on timeouts and retries. -/
def ExecutionSection.toJson (settings : ExecutionSection) : Text :=
  objectJson
    [("timeout_secs", optionalJson (fun secs => natJson secs.toNat) settings.timeoutSecs),
     ("max_retry_times", natJson settings.maxRetryTimes.toNat),
     ("connect_timeout_secs", natJson settings.connectTimeoutSecs.toNat)]

/-- The JSON text of the section on logging. -/
def LoggingSection.toJson (settings : LoggingSection) : Text :=
  objectJson [("level", quoted settings.level)]

/-- The JSON text of a configuration. -/
def toJson (config : Config) : Text :=
  objectJson [("backend", config.backend.toJson), ("execution", config.execution.toJson),
    ("logging", config.logging.toJson)]

end Errand.Config
