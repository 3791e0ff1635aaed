/-
# Choosing between this machine and another

A target without a host is this machine. A target with a host is this machine only
if the host is an address of it and the user is the one running the program; so no
target with a host ever means another user or another host here. Every other target
needs a user, a password and a port.
-/
import Errand.Config.Fault
import Errand.Environment
import Errand.Text.Decimal

namespace Errand.Backend

/-- What the running process knows of its user and its machine. -/
structure Identity where
  vars : ProcessVariables
  /-- The name of the user in the user database. -/
  account : Option Text
  /-- The name of the machine and the addresses it resolves to. -/
  addresses : List Text
  deriving DecidableEq, Repr

namespace Identity

/-- The variables that may name the user, in the order in which they are asked. -/
def userVariables : List Text := ["USER".toList, "LOGNAME".toList, "USERNAME".toList]

/-- The invoking user: the first variable that names one, else the account. -/
def currentUser (identity : Identity) : Option Text :=
  ((userVariables.filterMap identity.vars.text?).find? (!·.isEmpty)) <|> identity.account

/-- Whether a host is this machine. -/
def ownsHost (identity : Identity) (host : Text) : Bool :=
  host == "127.0.0.1".toList || Text.agreesFolded host "localhost".toList ||
    identity.addresses.contains host

/-- Whether a user on a host is the invoking user on this machine. -/
def isLocal (identity : Identity) (host user : Text) : Bool :=
  identity.currentUser == some user && identity.ownsHost host

end Identity

/-- The port where a caller does not choose one. -/
def defaultPort : UInt16 := 22

/-- Where and as whom commands are to run. -/
structure Target where
  host : Option Text
  /-- Without a user the invoking one is meant. -/
  user : Option Text
  password : Option Text
  port : UInt16
  deriving DecidableEq, Repr

/-- All that is needed to connect to another machine. -/
structure Credentials where
  host : Text
  user : Text
  password : Text
  port : UInt16
  deriving DecidableEq, Repr

/-- The other side of a connection as messages show it. -/
def Credentials.remote (credentials : Credentials) : Text :=
  credentials.user ++ '@' :: credentials.host ++ ':' :: Decimal.ofNat credentials.port.toNat

/-- Where commands are going to run. -/
inductive Choice where
  | here
  | elsewhere (credentials : Credentials)
  deriving DecidableEq, Repr

/-- A text that is there and not empty. -/
def nonempty? (text : Option Text) : Option Text := text.filter (!·.isEmpty)

namespace Target

/-- This machine, as the invoking user. -/
def here : Target := ⟨none, none, none, defaultPort⟩

/-- The user that commands would run as. -/
def effectiveUser (identity : Identity) (target : Target) : Option Text :=
  target.user <|> identity.currentUser

/-- Whether the target is this machine and the invoking user. -/
def selectsLocal (identity : Identity) (target : Target) : Bool :=
  match target.host with
  | none => true
  | some host => (target.effectiveUser identity).any (identity.isLocal host)

/-- The credentials for another machine, or the first thing that is missing. -/
def credentials (identity : Identity) (target : Target) : Except Config.Fault Credentials :=
  let host := target.host.getD []
  match nonempty? (target.effectiveUser identity) with
  | none => .error (.userRequired host)
  | some user =>
    match nonempty? target.password with
    | none => .error (.passwordRequired user host)
    | some password =>
      if target.port = 0 then .error (.portRequired user host)
      else .ok ⟨host, user, password, target.port⟩

/-- Where commands for the target run. -/
def choose (identity : Identity) (target : Target) : Except Config.Fault Choice :=
  if target.selectsLocal identity then .ok .here
  else (target.credentials identity).map .elsewhere

end Target

end Errand.Backend
