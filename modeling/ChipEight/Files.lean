import ChipEight.Fault
import ChipEight.Image

/-!
Files, read by path.

A file system answers every path with bytes or a fault. `Files` is the one in which a working
directory holds some files and nothing else: a look-up fails at the first component of the path that
cannot be entered.
-/

namespace ChipEight

abbrev FileSystem := String → Except Fault (List Byte)

abbrev Files := List (String × List Byte)

namespace Files

def maxNameBytes : Nat := 255

def maxPathBytes : Nat := 4095

def contents? (files : Files) (name : String) : Option (List Byte) := files.lookup name

/-- Walks the components of a path. Outside the working directory only parents are known. -/
def resolve (files : Files) (outside : Bool) : List String → Except FileProblem (List Byte)
  | [] => .error .directory
  | name :: rest =>
      if name = "" ∨ name = "." then resolve files outside rest
      else if name = ".." then resolve files true rest
      else if maxNameBytes < name.utf8ByteSize then .error .nameTooLong
      else if outside then .error .missing
      else
        match files.contents? name with
        | none => .error .missing
        | some data => if rest = [] then .ok data else .error .notDirectory

def system (files : Files) : FileSystem := fun path =>
  if '\x00' ∈ path.toList then .error .nulInPath
  else if path = "" then .error (.file .missing path)
  else if maxPathBytes < path.utf8ByteSize then .error (.file .nameTooLong path)
  else
    (resolve files (path.startsWith "/") (path.splitOn "/")).mapError fun problem =>
      .file problem path

end Files

def Machine.loadFile (m : Machine) (fs : FileSystem) (path : String) :
    Except Fault Nat × Machine :=
  match fs path with
  | .error fault => (.error fault, m)
  | .ok data =>
      let loading := m.load (.reader data none)
      (loading.count, loading.machine)

end ChipEight
