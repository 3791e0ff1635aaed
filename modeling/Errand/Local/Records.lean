/-
# What a local call writes to the log

The log of a call is read off its trace.
-/
import Errand.Local.Process
import Errand.Log.Record

namespace Errand.Local

/-- The number under which a process is known outside its call. -/
def systemNumber (process : ProcessId) : Nat := process + 2

/-- The record of an event, if it leaves one. -/
def Event.record? : Event → Option Log.Record
  | .changedDir cwd =>
    some ⟨.debug, .local, "cd", [⟨"cwd", Quoted.option Quoted.text cwd⟩]⟩
  | .assigned words => some ⟨.debug, .local, "export", [⟨"vars", Quoted.texts words⟩]⟩
  | .launched (.stage index) launch =>
    some ⟨.debug, .local, "spawning stage",
      [⟨"stage", Decimal.ofNat index⟩, ⟨"args", Quoted.texts (launch.program :: launch.args)⟩]⟩
  | .launched (.line text) launch =>
    some ⟨.debug, .local, "running line",
      [⟨"line", Quoted.text text⟩, ⟨"cwd", Quoted.option Quoted.text launch.cwd⟩]⟩
  | .waited process _ (.ok captured) =>
    if captured.timedOut then
      some ⟨.debug, .local, "final stage timed out",
        [⟨"pid", Decimal.ofNat (systemNumber process)⟩]⟩
    else none
  | .nothingToWait line =>
    some ⟨.debug, .local, "final stage is a builtin; nothing to wait for",
      [⟨"line", Quoted.text line⟩]⟩
  | .waited _ _ (.error _) => none
  | .refused _ => none
  | .killed _ => none
  | .reaped _ => none

/-- The records of a trace. -/
def Trace.records (trace : Trace) : List Log.Record := trace.filterMap Event.record?

end Errand.Local
