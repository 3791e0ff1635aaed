/-
# What the program runs in on the machine

The machine has one account and no network: every attempt to connect elsewhere is
refused.
-/
import Errand.Backend.Selection
import Errand.CommandLine
import Errand.Machine.Host

namespace Errand.Machine

/-- The account that programs run under. -/
def account : Text := "root".toList

/-- The name of the machine, which is its only address. -/
def hostName : Text := "machine".toList

/-- What a process with these variables knows of its user and its machine. -/
def identity (vars : ProcessVariables) : Backend.Identity :=
  ⟨vars, some account, [hostName]⟩

/-- A peer that cannot be reached. -/
def network : Remote.Peer := ⟨[some OsFault.networkUnreachable.message.toList], []⟩

/-- The surroundings of a program that is started in a directory. -/
def surroundings (base : Place) (vars : ProcessVariables) : CommandLine.Surroundings :=
  ⟨host base, identity vars, network⟩

end Errand.Machine
