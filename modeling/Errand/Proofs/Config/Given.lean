/-
# What a configuration file gives

A configuration that comes from a file has a value everywhere, and does not show which of them are
the file's and which are defaults. Here the same file is read into a form in which each value may
be missing. No default has a part in that, and filling the defaults in afterwards gives the
configuration.
-/
import Errand.Config.Load
import Errand.Proofs.Json.Filled

namespace Errand.Config

open Json

/-- What a file gives on where commands run. -/
structure Given.BackendSection where
  host : Option Text
  user : Option Text
  password : Option Text
  port : Option UInt16
  deriving DecidableEq, Repr

/-- What a file gives on timeouts and bounds of retries. -/
structure Given.ExecutionSection where
  timeoutSecs : Option UInt64
  maxRetryTimes : Option UInt32
  connectTimeoutSecs : Option UInt64
  deriving DecidableEq, Repr

/-- What a file gives on logging. -/
structure Given.LoggingSection where
  level : Option Text
  deriving DecidableEq, Repr

/-- What a file gives. -/
structure Given where
  backend : Given.BackendSection
  execution : Given.ExecutionSection
  logging : Given.LoggingSection
  deriving DecidableEq, Repr

namespace Given

/-! ## Reading -/

def BackendSection.nothing : BackendSection := ⟨none, none, none, none⟩

def ExecutionSection.nothing : ExecutionSection := ⟨none, none, none⟩

def LoggingSection.nothing : LoggingSection := ⟨none⟩

/-- What a file without any section gives. -/
def nothing : Given := ⟨.nothing, .nothing, .nothing⟩

def backendMembers : List (Member BackendSection) :=
  [.of "host" (readOptional readText) fun host given => { given with host := host },
   .of "user" (readOptional readText) fun user given => { given with user := user },
   .of "password" (readOptional readText) fun password given =>
     { given with password := password },
   .of "port" readPort fun port given => { given with port := some port }]

def executionMembers : List (Member ExecutionSection) :=
  [.of "timeout_secs" (readOptional readSecs) fun secs given => { given with timeoutSecs := secs },
   .of "max_retry_times" readCount fun times given => { given with maxRetryTimes := some times },
   .of "connect_timeout_secs" readSecs fun secs given =>
     { given with connectTimeoutSecs := some secs }]

def loggingMembers : List (Member LoggingSection) :=
  [.of "level" readText fun level _ => ⟨some level⟩]

def sections : List (Member Given) :=
  [.of "backend" (readRecord backendMembers .nothing) fun backend given =>
     { given with backend := backend },
   .of "execution" (readRecord executionMembers .nothing) fun execution given =>
     { given with execution := execution },
   .of "logging" (readRecord loggingMembers .nothing) fun logging given =>
     { given with logging := logging }]

/-- What a JSON text gives. A word for the absence of a value gives none. -/
def ofJson (text : Text) : Except Json.Fault Given :=
  readAll (readRecord sections nothing) text

/-- What a file gives. Where there is no file, nothing is given. -/
def ofFile (file : Option (Except OsFault (List UInt8))) : Except LoadFault Given :=
  match file with
  | none => .ok nothing
  | some (.error fault) => .error (.unreadable fault)
  | some (.ok bytes) =>
    match Utf8.decode? bytes with
    | none => .error (.unreadable .notUtf8)
    | some text => (ofJson text).mapError .json

/-! ## Filling in the defaults -/

def BackendSection.filled (given : BackendSection) : Config.BackendSection :=
  ⟨given.host, given.user, given.password, given.port.getD Config.BackendSection.standard.port⟩

def ExecutionSection.filled (given : ExecutionSection) : Config.ExecutionSection :=
  ⟨given.timeoutSecs, given.maxRetryTimes.getD Config.ExecutionSection.standard.maxRetryTimes,
    given.connectTimeoutSecs.getD Config.ExecutionSection.standard.connectTimeoutSecs⟩

def LoggingSection.filled (given : LoggingSection) : Config.LoggingSection :=
  ⟨given.level.getD Config.LoggingSection.standard.level⟩

/-- What is given, with the defaults where nothing is. -/
def filled (given : Given) : Config :=
  ⟨given.backend.filled, given.execution.filled, given.logging.filled⟩

private theorem backendMembers_mirrored :
    List.Forall₂ (Mirrors BackendSection.filled) backendMembers Config.backendMembers :=
  .cons (.of "host" id (Reader.map_id _).symm fun _ _ => rfl) <|
  .cons (.of "user" id (Reader.map_id _).symm fun _ _ => rfl) <|
  .cons (.of "password" id (Reader.map_id _).symm fun _ _ => rfl) <|
  .cons (.of "port" id (Reader.map_id _).symm fun _ _ => rfl) .nil

private theorem executionMembers_mirrored :
    List.Forall₂ (Mirrors ExecutionSection.filled) executionMembers Config.executionMembers :=
  .cons (.of "timeout_secs" id (Reader.map_id _).symm fun _ _ => rfl) <|
  .cons (.of "max_retry_times" id (Reader.map_id _).symm fun _ _ => rfl) <|
  .cons (.of "connect_timeout_secs" id (Reader.map_id _).symm fun _ _ => rfl) .nil

private theorem loggingMembers_mirrored :
    List.Forall₂ (Mirrors LoggingSection.filled) loggingMembers Config.loggingMembers :=
  .cons (.of "level" id (Reader.map_id _).symm fun _ _ => rfl) .nil

private theorem sections_mirrored :
    List.Forall₂ (Mirrors filled) sections Config.sections :=
  .cons (.of "backend" BackendSection.filled
    (Mirrors.readRecord backendMembers_mirrored .nothing) fun _ _ => rfl) <|
  .cons (.of "execution" ExecutionSection.filled
    (Mirrors.readRecord executionMembers_mirrored .nothing) fun _ _ => rfl) <|
  .cons (.of "logging" LoggingSection.filled
    (Mirrors.readRecord loggingMembers_mirrored .nothing) fun _ _ => rfl) .nil

theorem ofJson_filled (text : Text) : Config.ofJson text = (ofJson text).map filled := by
  rw [ofJson, ← readAll_map, ← Mirrors.readRecord sections_mirrored]
  rfl

/-- The configuration of a file is what the file gives, with the defaults where it gives nothing.
A file that cannot be read gives the same fault either way. -/
theorem ofFile_filled (file : Option (Except OsFault (List UInt8))) :
    Config.ofFile file = (ofFile file).map filled := by
  match file with
  | none => rfl
  | some (.error fault) => rfl
  | some (.ok bytes) =>
      rw [Config.ofFile, ofFile]
      cases Utf8.decode? bytes with
      | none => rfl
      | some text =>
          dsimp only
          rw [ofJson_filled]
          cases ofJson text <;> rfl

end Given

end Errand.Config
