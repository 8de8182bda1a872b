import ChipEight.Text.Hexadecimal
import ChipEight.Text.Quoted
import ChipEight.Text.Size

/-! Everything that can go wrong, and its wording. -/

namespace ChipEight

inductive FileProblem where
  | missing
  | directory
  | notDirectory
  | nameTooLong
  deriving DecidableEq, Repr

def FileProblem.number : FileProblem → Nat
  | .missing => 2
  | .directory => 21
  | .notDirectory => 20
  | .nameTooLong => 36

def FileProblem.text : FileProblem → String
  | .missing => "No such file or directory"
  | .directory => "Is a directory"
  | .notDirectory => "Not a directory"
  | .nameTooLong => "File name too long"

inductive Fault where
  | unknownOpcode (opcode pc : Int)
  | keyOutOfRange (key : Int)
  | tickTooShort (given : Int)
  | rateNotPositive
  | rateTooLarge
  | negativeKeep
  | keepTooLarge
  | cannotInject
  | file (problem : FileProblem) (path : String)
  | nulInPath
  | unreadable (message : String)
  | listener (message : String)
  | hostMissing
  | displayUnavailable (message : String)
  | mixer (message : String)
  | interrupted
  | componentOutOfRange (given : Int)
  /-- A colour for a table of the given axes that has neither one component nor three. -/
  | darkMiscounted (components : Nat) (shape : List Nat)
  | lightedMiscounted (components : Nat) (shape : List Nat)
  | sampleOutOfRange (given : Int)
  | negativeDimension
  | dimensionTooLarge
  | tableTooLarge
  | outOfMemory (bytes : Nat) (shape : List Nat)
  /-- A number that no word of the host holds. -/
  | wordOverflow
  | keyNameMissing (name : String)
  | blankSeed
  | blankScale
  | blankRate
  | blankLimit
  deriving DecidableEq, Repr

namespace Fault

/-- Axes in brackets, with a comma behind a single one. -/
def axesText (separator : String) : List Nat → String
  | [axis] => s!"({axis},)"
  | axes => "(" ++ separator.intercalate (axes.map toString) ++ ")"

def dense (shape : List Nat) : String := axesText "," shape

def spaced (shape : List Nat) : String := axesText ", " shape

def message : Fault → String
  | unknownOpcode opcode pc => s!"Unknown opcode {Text.hexWord opcode} @ {Text.hexWord pc}"
  | keyOutOfRange key => s!"Key id out of range: {key}"
  | tickTooShort given => s!"cycles_per_tick must be >= 1, got {given}"
  | rateNotPositive => "cpu_hz and fps must be positive"
  | rateTooLarge => "int too large to convert to float"
  | negativeKeep => "maxlen must be non-negative"
  | keepTooLarge => "Python int too large to convert to C ssize_t"
  | cannotInject => "'Chip8Display' object has no attribute 'inject_key'"
  | file problem path => s!"[Errno {problem.number}] {problem.text}: {Text.quoted path}"
  | nulInPath => "embedded null byte"
  | unreadable message => message
  | listener message => message
  | hostMissing => "No module named 'pygame'"
  | displayUnavailable message => message
  | mixer message => message
  | interrupted => ""
  | componentOutOfRange given => s!"Python integer {given} out of bounds for uint8"
  | darkMiscounted components shape =>
      s!"could not broadcast input array from shape {dense [components]} " ++
      s!"into shape {dense shape}"
  | lightedMiscounted components shape =>
      s!"shape mismatch: value array of shape {dense [components]} " ++
      s!"could not be broadcast to indexing result of shape {dense shape}"
  | sampleOutOfRange given => s!"Python integer {given} out of bounds for int16"
  | negativeDimension => "negative dimensions are not allowed"
  | dimensionTooLarge => "Maximum allowed dimension exceeded"
  | tableTooLarge =>
      "array is too big; \x60arr.size * arr.dtype.itemsize\x60 " ++
      "is larger than the maximum possible size."
  | outOfMemory bytes shape =>
      s!"Unable to allocate {Text.size bytes} for an array with shape " ++
      s!"{spaced shape} and data type int16"
  | wordOverflow => "Python int too large to convert to C long"
  | keyNameMissing name => name
  | blankSeed =>
      "The only supported seed types are: None,\nint, float, str, bytes, and bytearray."
  | blankScale => "'>' not supported between instances of 'list' and 'int'"
  | blankRate => "'<' not supported between instances of 'list' and 'int'"
  | blankLimit => "'<' not supported between instances of 'int' and 'list'"

/-- The failures of the file system and of readers, which a caller may report and survive. -/
def isInputOutput : Fault → Bool
  | file _ _ | unreadable _ => true
  | _ => false

/-- The failures of opening a window. -/
def isWindow : Fault → Bool
  | hostMissing | displayUnavailable _ => true
  | _ => false

def isMachine : Fault → Bool
  | unknownOpcode _ _ => true
  | _ => false

end Fault

end ChipEight
