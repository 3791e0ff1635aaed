/-
# Where a configuration comes from

Four layers lie over each other: the defaults, a file, variables and the command line.
A value of a later layer hides those of the earlier ones.
-/
import Errand.Config.Decode

namespace Errand.Config

/-- The values that the command line gives. -/
structure Overrides where
  host : Option Text
  user : Option Text
  port : Option UInt16
  timeoutSecs : Option UInt64
  logLevel : Option Text
  deriving DecidableEq, Repr

/-- The configuration in a file, if one is given. Without one all values are the
defaults. -/
def ofFile (file : Option (Except OsFault (List UInt8))) : Except LoadFault Config :=
  match file with
  | none => .ok standard
  | some (.error fault) => .error (.unreadable fault)
  | some (.ok bytes) =>
    match Utf8.decode? bytes with
    | none => .error (.unreadable .notUtf8)
    | some text => (ofJson text).mapError .json

/-- A port as a variable writes it. -/
def readPortText (text : Text) : Except LoadFault UInt16 :=
  match Decimal.unsigned? UInt16.size text with
  | some value => .ok (UInt16.ofNat value)
  | none => .error (.invalidPort text)

/-- The level that variables give: the library's own variable goes before the general
one. -/
def levelOf (vars : ProcessVariables) : Option Text :=
  vars.text? "FLEET_SHELL_LOG_LEVEL".toList <|> vars.text? "RUST_LOG".toList

/-- The configuration under the values that variables give. A host or a user that is
empty counts as missing. -/
def applyVariables (vars : ProcessVariables) (config : Config) :
    Except LoadFault Config := do
  let host := Backend.nonempty? (vars.text? "FLEET_SHELL_HOST".toList)
  let user := Backend.nonempty? (vars.text? "FLEET_SHELL_USER".toList)
  let password := vars.text? "FLEET_SHELL_PASSWORD".toList
  let port ← match vars.text? "FLEET_SHELL_PORT".toList with
    | none => pure config.backend.port
    | some text => readPortText text
  return { config with
    backend :=
      { host := host <|> config.backend.host
        user := user <|> config.backend.user
        password := password <|> config.backend.password
        port := port }
    logging := ⟨(levelOf vars).getD config.logging.level⟩ }

/-- The configuration under the values that the command line gives. -/
def applyOverrides (overrides : Overrides) (config : Config) : Config where
  backend :=
    { config.backend with
      host := overrides.host <|> config.backend.host
      user := overrides.user <|> config.backend.user
      port := overrides.port.getD config.backend.port }
  execution :=
    { config.execution with
      timeoutSecs := overrides.timeoutSecs <|> config.execution.timeoutSecs }
  logging := ⟨overrides.logLevel.getD config.logging.level⟩

/-- The configuration that all layers make together. -/
def load (file : Option (Except OsFault (List UInt8))) (vars : ProcessVariables)
    (overrides : Overrides) : Except LoadFault Config := do
  return applyOverrides overrides (← applyVariables vars (← ofFile file))

end Errand.Config
