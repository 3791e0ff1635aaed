/-
# Setting up logging

Logging is set up at most once in a process: the first filter stays. A later attempt
fails, and one that insists ends in a crash.
-/
import Errand.Log.Filter

namespace Errand.Log

/-- The ways to set up logging. -/
inductive Setup where
  /-- From the variable, insisting. -/
  | insist
  /-- From the variable. -/
  | attempt
  /-- From a level of the configuration. -/
  | attemptLevel (level : Text)
  deriving DecidableEq, Repr

/-- What became of an attempt. -/
inductive Outcome where
  | done
  | refused
  | crashed
  deriving DecidableEq, Repr

/-- The filter that a way of setting up asks for. `setting` is the value of the
filter variable. -/
def Setup.filter (setting : Option Text) : Setup → Filter
  | .insist => .ofVariable setting
  | .attempt => .ofVariable setting
  | .attemptLevel level => .ofLevel level

/-- What becomes of an attempt and the filter in force after it. -/
def Setup.perform (setting : Option Text) (current : Option Filter) (setup : Setup) :
    Outcome × Option Filter :=
  match current, setup with
  | none, _ => (.done, some (setup.filter setting))
  | some filter, .insist => (.crashed, some filter)
  | some filter, _ => (.refused, some filter)

/-- The outcomes of several attempts and the filter in force after them. -/
def Setup.performAll (setting : Option Text) :
    Option Filter → List Setup → List Outcome × Option Filter
  | current, [] => ([], current)
  | current, setup :: setups =>
    let (outcome, next) := setup.perform setting current
    let (outcomes, last) := performAll setting next setups
    (outcome :: outcomes, last)

end Errand.Log
