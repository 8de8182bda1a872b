import ChipEight.Arguments.Flag
import ChipEight.Text.Digit

/-!
Arguments sorted into words, options and the marker that ends the options.

An argument with a dash in front is an option unless it is the dash alone, looks like a negative
number, or holds a space and fits no option. A long option may be cut short as long as only one
begins so; that more than one does is found before anything else.
-/

namespace ChipEight

inductive Token where
  | word (text : String)
  /-- The first `--`; all that follows it are words. -/
  | marker
  | option (flag : Flag) (explicit : Option String)
  /-- Short options run together: the letters behind `-h`, or behind `-h=`. -/
  | cluster (letters : List Char)
  | unknown (text : String)
  deriving DecidableEq, Repr

structure Ambiguity where
  given : String
  candidates : List Flag
  deriving DecidableEq, Repr

namespace Token

def isDigit (c : Char) : Bool := (Text.digit? c).isSome

/-- A dash and digits, or a dash and a fraction with digits behind its point. One line break may
follow. -/
def isNegativeNumber (s : String) : Bool :=
  match s.toList with
  | '-' :: cs =>
      let cs := if cs.getLast? = some '\n' then cs.dropLast else cs
      let fraction := cs.dropWhile isDigit
      match fraction with
      | [] => !cs.isEmpty
      | '.' :: rest => !rest.isEmpty && rest.all isDigit
      | _ => false
  | _ => false

/-- An argument before and behind its first equals sign, if it has one. -/
def splitValue (s : String) : String × Option String :=
  let cs := s.toList
  match cs.dropWhile (· != '=') with
  | [] => (s, none)
  | _ :: value => (String.ofList (cs.takeWhile (· != '=')), some (String.ofList value))

def abbreviated (s : String) : Except Ambiguity Token :=
  let (start, value) := splitValue s
  let plain := if isNegativeNumber s || s.contains ' ' then word s else unknown s
  match s.toList with
  | '-' :: '-' :: _ =>
      match Flag.beginning start with
      | [] => .ok plain
      | [flag] => .ok (option flag value)
      | candidates => .error ⟨s, candidates⟩
  | '-' :: 'h' :: letters => .ok (cluster letters)
  | _ => .ok plain

def classify (s : String) : Except Ambiguity Token :=
  if ¬ "-".isPrefixOf s ∨ s = "-" then .ok (word s)
  else
    match Flag.ofName? s with
    | some flag => .ok (option flag none)
    | none =>
        match splitValue s with
        | (name, some value) =>
            match Flag.ofName? name with
            | some flag =>
                if name = "-h" ∧ value ≠ "" then .ok (cluster value.toList)
                else .ok (option flag (some value))
            | none => abbreviated s
        | (_, none) => abbreviated s

def classifyAll : List String → Except Ambiguity (List Token)
  | [] => .ok []
  | s :: rest =>
      if s = "--" then .ok (marker :: rest.map word)
      else do return (← classify s) :: (← classifyAll rest)

end Token

end ChipEight
