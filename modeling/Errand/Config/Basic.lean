/-
# Configurations

A configuration says where commands run, how long they may take and what is logged.
It has three sections, and every value in them has a default.
-/
import Errand.Backend.Selection
import Errand.Remote.Session

namespace Errand.Config

/-- Where commands run. Without a host they run on this machine. -/
structure BackendSection where
  host : Option Text
  /-- Without a user the invoking one is meant. -/
  user : Option Text
  /-- It is read but never written. -/
  password : Option Text
  port : UInt16
  deriving DecidableEq, Repr

/-- Timeouts and bounds of retries. -/
structure ExecutionSection where
  /-- Seconds that a call may take. Without them, or with none, it may take forever. -/
  timeoutSecs : Option UInt64
  maxRetryTimes : UInt32
  connectTimeoutSecs : UInt64
  deriving DecidableEq, Repr

/-- What is logged. -/
structure LoggingSection where
  level : Text
  deriving DecidableEq, Repr

end Errand.Config

namespace Errand

/-- A whole configuration. -/
structure Config where
  backend : Config.BackendSection
  execution : Config.ExecutionSection
  logging : Config.LoggingSection
  deriving DecidableEq, Repr

namespace Config

/-- This machine, as the invoking user. -/
def BackendSection.standard : BackendSection := ⟨none, none, none, Backend.defaultPort⟩

/-- No timeout, the usual number of retries, ten seconds to connect. -/
def ExecutionSection.standard : ExecutionSection :=
  ⟨none, UInt32.ofNat Remote.defaultMaxRetries, 10⟩

/-- What happens, but not every detail. -/
def LoggingSection.standard : LoggingSection := ⟨"info".toList⟩

/-- The configuration in which every value is the default. -/
def standard : Config := ⟨.standard, .standard, .standard⟩

/-- Where commands are to run. -/
def target (config : Config) : Backend.Target :=
  ⟨config.backend.host, config.backend.user, config.backend.password, config.backend.port⟩

/-- The options of a call under this configuration. -/
def runOptions (config : Config) : Run.Options :=
  Run.Options.empty.withTimeoutSecs ((config.execution.timeoutSecs.getD 0).toNat)

/-- The filter for log records. -/
def logFilter (config : Config) : Text := config.logging.level

end Config

end Errand
