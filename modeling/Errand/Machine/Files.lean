/-
# The files of a small machine

A fixed tree of directories, files, devices and programs. A path is walked part by
part from the root or from a working directory.
-/
import Errand.Machine.Stream

namespace Errand.Machine

/-- Where something is: the names that lead to it from the root. -/
abbrev Place := List Text

/-- What may be found at a place. -/
inductive Node where
  | directory
  | file (contents : Bytes)
  /-- A device that gives NULs without end. -/
  | zeros
  /-- A device that gives nothing. -/
  | void
  | program (name : Text)
  /-- Another name for a directory. -/
  | link (target : Place)
  deriving DecidableEq, Repr

/-- The tree of all files, as a list of places. -/
abbrev Files := List (Place × Node)

namespace Place

/-- The place that a path of plain names spells. -/
def ofString (path : String) : Place := (Text.cutAll '/' path.toList).filter (!·.isEmpty)

/-- The absolute path of a place. -/
def path : Place → Text
  | [] => ['/']
  | names => names.flatMap ('/' :: ·)

end Place

namespace Files

/-- The directories of the machine. -/
def directories : List Place :=
  ["", "dev", "etc", "home", "mnt", "opt", "proc", "root", "run", "srv", "sys", "tmp", "usr",
   "usr/bin", "usr/games", "usr/include", "usr/lib", "usr/lib64", "usr/local", "usr/local/bin",
   "usr/local/sbin", "usr/sbin", "usr/share", "usr/src", "var", "var/log", "var/tmp",
   "work"].map Place.ofString

/-- The second names of directories. -/
def links : Files :=
  [("bin", "usr/bin"), ("sbin", "usr/sbin"), ("lib", "usr/lib"), ("lib64", "usr/lib64")].map
    fun (name, target) => (Place.ofString name, .link (Place.ofString target))

/-- The user database. -/
def accounts : Bytes := Utf8.encode "root:x:0:0:root:/root:/bin/sh\n".toList

/-- The tree with these programs in the directory for programs. -/
def withPrograms (names : List Text) : Files :=
  directories.map (·, .directory) ++ links ++
    [(Place.ofString "etc/passwd", .file accounts), (Place.ofString "dev/null", .void),
     (Place.ofString "dev/zero", .zeros)] ++
    names.map fun name => (Place.ofString "usr/bin" ++ [name], .program name)

/-- What is at a place. -/
def node? (files : Files) (place : Place) : Option Node := List.lookup place files

/-- The longest name that a file can have, in bytes. -/
def maxName : Nat := 255

/-- The first length of a path that is too long, in bytes. -/
def pathBound : Nat := 4096

/-- Walk from a place along the parts of a path. -/
def walk (files : Files) : Place → Node → List Text → Except OsFault (Place × Node)
  | place, node, [] => .ok (place, node)
  | place, .directory, part :: parts =>
    if part = [] ∨ part = ['.'] then walk files place .directory parts
    else if part = ['.', '.'] then walk files place.dropLast .directory parts
    else if maxName < Utf8.size part then .error .nameTooLong
    else match files.node? (place ++ [part]) with
      | none => .error .notFound
      | some (.link target) => walk files target .directory parts
      | some node => walk files (place ++ [part]) node parts
  | _, _, _ :: _ => .error .notDirectory

/-- What a path leads to from a working directory. -/
def resolve (files : Files) (place : Place) (path : Text) : Except OsFault (Place × Node) :=
  match path with
  | [] => .error .notFound
  | first :: _ =>
    if pathBound ≤ Utf8.size path then .error .nameTooLong
    else files.walk (if first = '/' then [] else place) .directory (path.cutAll '/')

/-- The directory that a path leads to. -/
def directory (files : Files) (place : Place) (path : Text) : Except OsFault Place := do
  match ← files.resolve place path with
  | (found, .directory) => return found
  | _ => throw .notDirectory

/-- What can be read from the file that a path leads to. -/
def read (files : Files) (place : Place) (path : Text) : Except OsFault Stream := do
  match (← files.resolve place path).2 with
  | .file contents => return .ofBytes contents
  | .void => return .empty
  | .zeros => return ⟨[], .repeats [0]⟩
  | .program _ => return .empty
  | .directory => throw .isDirectory
  | .link _ => throw .isDirectory

/-- The program that a path leads to. Nothing but a program can be run. -/
def program (files : Files) (place : Place) (path : Text) : Except OsFault Text := do
  match (← files.resolve place path).2 with
  | .program name => return name
  | _ => throw .permissionDenied

end Files

end Errand.Machine
