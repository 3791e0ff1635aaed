/-
# Programs that name what is there

The working directory, the parts of a path, the entries of a directory, and who and
what the machine is.
-/
import Errand.Machine.Programs.Reading

namespace Errand.Machine.Programs

open Program

/-- Print the working directory: `pwd`. -/
def directory : Program := fun setting _ => .prints (lineOf setting.place.path)

/-- A path without the slashes at its end. A path of slashes alone is one slash. -/
def withoutFinalSlashes (path : Text) : Text :=
  match (path.reverse.dropWhile (· = '/')).reverse with
  | [] => if path.isEmpty then [] else ['/']
  | kept => kept

/-- The last name of a path. -/
def lastName (path : Text) : Text :=
  match withoutFinalSlashes path with
  | ['/'] => ['/']
  | kept => (kept.reverse.takeWhile (· ≠ '/')).reverse

/-- A name without an ending, unless it is nothing but that. -/
def withoutSuffix (suffix name : Text) : Text :=
  if suffix.isSuffixOf name && suffix.length < name.length then
    name.take (name.length - suffix.length)
  else name

/-- Print the last name of a path: `basename`. -/
def baseName : Program := fun setting _ =>
  match setting.args with
  | [] => missingOperand "basename"
  | [path] => .prints (lineOf (lastName path))
  | [path, suffix] => .prints (lineOf (withoutSuffix suffix (lastName path)))
  | _ :: _ :: extra :: _ => usage "basename" ("extra operand '" ++ Text.toString extra ++ "'") 1

/-- The path without its last name. -/
def parentPath (path : Text) : Text :=
  let kept := withoutFinalSlashes path
  if kept.contains '/' then
    withoutFinalSlashes (kept.reverse.dropWhile (· ≠ '/')).reverse
  else ['.']

/-- Print a path without its last name: `dirname`. -/
def directoryName : Program := fun setting _ =>
  match setting.args with
  | [] => missingOperand "dirname"
  | paths => .prints (paths.flatMap fun path => lineOf (parentPath path))

/-- Print the name of the system: `uname`. -/
def systemName : Program := fun _ _ => .prints (lineOf "Linux".toList)

/-- Print the name of the account: `whoami`. -/
def accountName : Program := fun _ _ => .prints (lineOf "root".toList)

/-- The names that stand directly in a directory, in the order of their bytes. -/
def entries (files : Files) (place : Place) : List Text :=
  (files.filterMap fun (entry, _) =>
    if entry.dropLast = place then entry.getLast? else none).mergeSort fun left right =>
      bytesLe (Utf8.encode left) (Utf8.encode right)

/-- What `ls` finds under an operand: a complaint, the operand itself, or the entries
of a directory. -/
inductive Listed where
  | missing (complaint : Text)
  | itself
  | entries (names : List Text)
  deriving DecidableEq, Repr

/-- What `ls` finds under an operand. Directories are opened unless they are asked for
as such. -/
def listed (setting : Setting) (opens : Bool) (operand : Text) : Listed :=
  match setting.files.resolve setting.place operand with
  | .error fault => .missing (lineOf ("ls: cannot access '".toList ++ operand ++ "': ".toList ++
      (faultText fault).toList))
  | .ok (place, .directory) => if opens then .entries (entries setting.files place) else .itself
  | .ok _ => .itself

/-- List directories: `ls`. Operands that are no directories come first, and each
directory has a heading if there is more than one operand. -/
def listing : Program := fun setting _ =>
  let (options, operands) := splitOptions setting.args
  let operands := if operands.isEmpty then [['.']] else operands
  let found := operands.map fun operand =>
    (operand, listed setting (!(letters options).contains 'd') operand)
  let complaints := found.flatMap fun (_, what) => match what with
    | .missing complaint => complaint
    | _ => []
  let plain := found.filterMap fun (operand, what) =>
    if what = .itself then some (lineOf operand) else none
  let opened := found.filterMap fun (operand, what) => match what with
    | .entries names =>
      some ((if 1 < found.length then lineOf (operand ++ [':']) else []) ++ names.flatMap lineOf)
    | _ => none
  let parts := (if plain.isEmpty then [] else [plain.flatten]) ++ opened
  .finished 0 (Utf8.encode (Text.join ['\n'] parts)) (Utf8.encode complaints)
    (if complaints.isEmpty then 0 else 2)

end Errand.Machine.Programs
