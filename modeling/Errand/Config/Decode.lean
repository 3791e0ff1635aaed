/-
# Reading a configuration

Each section is a record. What a text leaves out keeps its default.
-/
import Errand.Config.Basic
import Errand.Json.Record

namespace Errand.Config

open Json

/-- Read a port. -/
def readPort : Reader UInt16 := fun text =>
  (readNatural UInt16.size text).map fun (value, rest) => (UInt16.ofNat value, rest)

/-- Read a number of 32 bits. -/
def readCount : Reader UInt32 := fun text =>
  (readNatural UInt32.size text).map fun (value, rest) => (UInt32.ofNat value, rest)

/-- Read a number of 64 bits. -/
def readSecs : Reader UInt64 := fun text =>
  (readNatural UInt64.size text).map fun (value, rest) => (UInt64.ofNat value, rest)

/-- The members of the section on where commands run. -/
def backendMembers : List (Member BackendSection) :=
  [.of "host" (readOptional readText) fun host settings => { settings with host := host },
   .of "user" (readOptional readText) fun user settings => { settings with user := user },
   .of "password" (readOptional readText) fun password settings =>
     { settings with password := password },
   .of "port" readPort fun port settings => { settings with port := port }]

/-- The members of the section on timeouts and retries. -/
def executionMembers : List (Member ExecutionSection) :=
  [.of "timeout_secs" (readOptional readSecs) fun secs settings =>
     { settings with timeoutSecs := secs },
   .of "max_retry_times" readCount fun times settings => { settings with maxRetryTimes := times },
   .of "connect_timeout_secs" readSecs fun secs settings =>
     { settings with connectTimeoutSecs := secs }]

/-- The members of the section on logging. -/
def loggingMembers : List (Member LoggingSection) :=
  [.of "level" readText fun level settings => { settings with level := level }]

/-- The sections. -/
def sections : List (Member Config) :=
  [.of "backend" (readRecord backendMembers .standard) fun backend config =>
     { config with backend := backend },
   .of "execution" (readRecord executionMembers .standard) fun execution config =>
     { config with execution := execution },
   .of "logging" (readRecord loggingMembers .standard) fun logging config =>
     { config with logging := logging }]

/-- The configuration that a JSON text describes. -/
def ofJson (text : Text) : Except Json.Fault Config :=
  readAll (readRecord sections standard) text

end Errand.Config
