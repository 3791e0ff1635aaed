/-
# The command line program

The program reads its arguments and its configuration, runs the command on one
executor and passes on the output and the exit code. All of it is a function of what
the outer layer hands in.
-/
import Errand.Arguments
import Errand.Backend.Executor
import Errand.Log.Setup

namespace Errand.CommandLine

/-- What the program leaves behind. -/
structure Report where
  code : Nat
  stdout : Text
  /-- Log records that pass the filter, as lines. -/
  log : List Text
  stderr : Text
  deriving DecidableEq, Repr

/-- The name under which the program is called. -/
def programName : String := "fleet-shell"

/-- The version of the program. -/
def version : String := "0.1.0"

/-- Text and a newline behind it. -/
def line (text : Text) : Text := text ++ ['\n']

/-- The name and the version. -/
def versionText : Text := line (programName ++ " " ++ version).toList

/-- The help text, line by line. -/
def helpLines : List String :=
  ["Run shell-style command lines locally or on a remote host over SSH",
   "",
   "USAGE:",
   "    fleet-shell [OPTIONS] <COMMAND>...",
   "",
   "OPTIONS:",
   "    -H, --host <HOST>       Remote host [default: run locally]",
   "    -u, --user <USER>       Remote user [default: invoking user]",
   "    -p, --port <PORT>       SSH port [default: 22]",
   "    -t, --timeout <SECS>    Per-call timeout in seconds [default: none]",
   "    -c, --config <FILE>     Path to configuration file (JSON)",
   "    -l, --log-level <LVL>   Log level (error, warn, info, debug, trace)",
   "    -m, --many              Run each COMMAND as one line of a list",
   "    -h, --help              Print help",
   "    -V, --version           Print version",
   "",
   "ENVIRONMENT VARIABLES:",
   "    FLEET_SHELL_HOST        Remote host (overrides config)",
   "    FLEET_SHELL_USER        Remote user (overrides config)",
   "    FLEET_SHELL_PASSWORD    Remote password (overrides config)",
   "    FLEET_SHELL_PORT        SSH port (overrides config)",
   "    FLEET_SHELL_LOG_LEVEL   Log level (overrides config)",
   "    RUST_LOG                Alternative log level setting",
   "",
   "EXAMPLES:",
   "    # Local pipeline",
   "    fleet-shell 'ps -ef | grep postgres'",
   "",
   "    # Remote host, password from the environment",
   "    FLEET_SHELL_PASSWORD=... fleet-shell -H db01 -u omm 'gs_ctl status'",
   "",
   "    # Command list in one remote shell",
   "    fleet-shell -H db01 -u omm -m 'cd /data' 'du -sh .'",
   ""]

/-- The help text. -/
def helpText : Text := versionText ++ helpLines.flatMap fun text => line text.toList

/-- A complaint on the standard error. -/
def errorLine (message : Text) : Text := line ("error: ".toList ++ message)

/-- A report of nothing but a text on the standard output. -/
def printed (text : Text) : Report := ⟨0, text, [], []⟩

/-- The report of arguments that cannot be read. -/
def rejected (fault : Arguments.Fault) : Report :=
  ⟨2, [], [], errorLine fault.message ++
    line ("Try '" ++ programName ++ " --help' for more information.").toList⟩

/-- What is to be done once the arguments are read. -/
inductive Plan where
  /-- Nothing is run. -/
  | report (report : Report)
  | run (arguments : Arguments)
  deriving DecidableEq, Repr

/-- The plan that the words behind the program's name make. Help goes before the
version. -/
def plan (words : List (List UInt8)) : Plan :=
  match Arguments.read words with
  | .error fault => .report (rejected fault)
  | .ok arguments =>
    if arguments.help then .report (printed helpText)
    else if arguments.version then .report (printed versionText)
    else .run arguments

/-- What the program runs in. -/
structure Surroundings where
  host : Local.Host
  identity : Backend.Identity
  /-- What other machines will do. -/
  network : Remote.Peer

/-- The call that the arguments ask for: without a list, the words are one line. -/
def callOf (arguments : Arguments) : Run.Call :=
  if arguments.many then .many arguments.commands
  else .one (Text.join [' '] arguments.commands)

/-- The exit code of the program for that of a call: its lowest eight bits, and 1 where
there is none. -/
def exitCode : Option Int → Nat
  | none => 1
  | some code => (code % 256).toNat

/-- A text with its newline, unless there is none. -/
def lineUnlessEmpty (text : Text) : Text := if text.isEmpty then [] else line text

/-- The complaint about a call whose time ran out. -/
def timeoutLine (options : Run.Options) : Text :=
  match options.timeout with
  | none => []
  | some limit =>
    errorLine ("timed out after ".toList ++ Decimal.ofNat limit.wholeSecs ++ ".0s".toList)

/-- The record of a call that has come to an end. -/
def finishedRecord (result : Run.Result) : Log.Record :=
  ⟨.debug, .program, "finished",
    [⟨"exit_code", Quoted.option Decimal.ofInt result.exitCode⟩,
     ⟨"timed_out", (toString result.timedOut).toList⟩]⟩

/-- The record of a call that has failed. -/
def failedRecord (error : Error) : Log.Record :=
  ⟨.error, .program, "command failed", [⟨"error", error.message.toList⟩]⟩

/-- The result of the command, with the log records of the way to it. -/
def runCommand (surroundings : Surroundings) (config : Config) (call : Run.Call) :
    Except Error Run.Result × List Log.Record :=
  let (opened, records) := Backend.Executor.ofTarget surroundings.identity .first
    config.execution.maxRetryTimes.toNat surroundings.network config.target
  match opened with
  | .error error => (.error error, records)
  | .ok executor =>
    let (outcome, more, after) := executor.run surroundings.host
      surroundings.identity.vars call config.runOptions
    (outcome, records ++ more ++ after.closingRecords)

/-- Carry out a command under a configuration. -/
def runUnder (surroundings : Surroundings) (config : Config) (call : Run.Call) : Report :=
  let filter := Log.Setup.filter none (.attemptLevel config.logFilter)
  let (outcome, records) := runCommand surroundings config call
  match outcome with
  | .error error =>
    ⟨1, [], filter.lines (records ++ [failedRecord error]), errorLine error.message.toList⟩
  | .ok result =>
    { code := exitCode result.exitCode
      stdout := lineUnlessEmpty result.stdout
      log := filter.lines (records ++ [finishedRecord result])
      stderr := lineUnlessEmpty result.stderr ++
        (if result.timedOut then timeoutLine config.runOptions else []) }

/-- Carry out what the arguments ask for. `file` is what reading the configuration file
gave, if the arguments name one. -/
def carryOut (surroundings : Surroundings) (file : Option (Except OsFault (List UInt8)))
    (arguments : Arguments) : Report :=
  match Config.load file surroundings.identity.vars arguments.overrides with
  | .error fault => ⟨2, [], [], errorLine fault.message.toList⟩
  | .ok config => runUnder surroundings config (callOf arguments)

end Errand.CommandLine
