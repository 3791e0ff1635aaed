/-
# Faults of configuration
-/
import Errand.Json.Fault
import Errand.OsFault

namespace Errand.Config

/-- Why a configuration cannot be loaded. -/
inductive LoadFault where
  | unreadable (fault : OsFault)
  | json (fault : Json.Fault)
  | invalidPort (text : Text)
  deriving DecidableEq, Repr

/-- The wording of a load fault. -/
def LoadFault.message : LoadFault → String
  | .unreadable fault => "failed to read config file: " ++ fault.message
  | .json fault => "failed to parse config file: " ++ fault.message
  | .invalidPort text => "invalid port: " ++ text.toString

/-- What keeps a backend from being chosen or configured. -/
inductive Fault where
  | userRequired (host : Text)
  | passwordRequired (user host : Text)
  | portRequired (user host : Text)
  | load (fault : LoadFault)
  deriving DecidableEq, Repr

/-- The wording of a configuration fault. -/
def Fault.message : Fault → String
  | .userRequired host => "user is required for remote host " ++ host.toString
  | .passwordRequired user host =>
    "password is required for " ++ user.toString ++ "@" ++ host.toString
  | .portRequired user host =>
    "port is required for " ++ user.toString ++ "@" ++ host.toString
  | .load fault => fault.message

end Errand.Config
