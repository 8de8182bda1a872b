import ChipEight.Arguments.Token
import ChipEight.Console
import ChipEight.Text.Numeral
import ChipEight.Text.Quoted

/-!
The settings that the command line gives, read from its arguments from left to right. The first
word is the program image; the first argument that is wrong, or asks for help, decides.
-/

namespace ChipEight

/-- What an option is given: a number, or `--` behind its equals sign, which leaves it blank. A
blank is read without complaint and is a fault where the number is needed. -/
inductive Setting where
  | number (n : Int)
  | blank
  deriving DecidableEq, Repr

namespace Setting

def ofText? (text : String) : Option Setting :=
  if text = "--" then some blank else (Text.integer? text).map number

def given (s : Setting) (ifBlank : Fault) : Except Fault Int :=
  match s with
  | number n => .ok n
  | blank => .error ifBlank

end Setting

structure Options where
  rom : String
  scale : Setting
  speed : Setting
  fps : Setting
  seed : Option Setting
  headless : Bool
  cycles : Option Setting
  mute : Bool
  deriving DecidableEq, Repr

inductive UsageError where
  | ambiguous (a : Ambiguity)
  | notInteger (flag : Flag) (text : String)
  | valueMissing (flag : Flag)
  | valueUnwanted (flag : Flag) (text : String)
  | romMissing
  | unrecognized (arguments : List String)
  deriving DecidableEq, Repr

def UsageError.message : UsageError → String
  | ambiguous a =>
      let candidates := ", ".intercalate (a.candidates.map Flag.name)
      s!"ambiguous option: {a.given} could match {candidates}"
  | notInteger flag text =>
      s!"argument {flag.title}: invalid int value: {Text.quoted text}"
  | valueMissing flag => s!"argument {flag.title}: expected one argument"
  | valueUnwanted flag text =>
      s!"argument {flag.title}: ignored explicit argument {Text.quoted text}"
  | romMissing => "the following arguments are required: rom"
  | unrecognized arguments => "unrecognized arguments: " ++ " ".intercalate arguments

inductive Refusal where
  | help
  | usage (e : UsageError)
  deriving DecidableEq, Repr

namespace Options

structure Draft where
  rom : Option String
  options : Options
  extras : List String

def defaults : Options where
  rom := ""
  scale := .number Window.defaultScale
  speed := .number Machine.frequency
  fps := .number Console.defaultFrameRate
  seed := none
  headless := false
  cycles := none
  mute := false

def Draft.empty : Draft := ⟨none, defaults, []⟩

def Draft.extra (d : Draft) (text : String) : Draft := { d with extras := d.extras ++ [text] }

def set (o : Options) (flag : Flag) (s : Setting) : Options :=
  match flag with
  | .scale => { o with scale := s }
  | .speed => { o with speed := s }
  | .fps => { o with fps := s }
  | .seed => { o with seed := some s }
  | .cycles => { o with cycles := some s }
  | .help | .headless | .mute => o

def switch (o : Options) (flag : Flag) : Options :=
  match flag with
  | .headless => { o with headless := true }
  | .mute => { o with mute := true }
  | _ => o

def Draft.setValue (d : Draft) (flag : Flag) (text : String) : Except Refusal Draft :=
  match Setting.ofText? text with
  | some s => .ok { d with options := d.options.set flag s }
  | none => .error (.usage (.notInteger flag text))

/-- What the letters run together with `-h` come to. More `h`s ask for help again, and the first
other letter begins a value that help does not take. -/
def helpOr (letters : List Char) : Refusal :=
  match letters.dropWhile (· == 'h') with
  | [] => .help
  | rest => .usage (.valueUnwanted .help (String.ofList rest))

/-- Reads the arguments. A marker right before or behind the image's name belongs to it. -/
def fill (d : Draft) : List Token → Except Refusal Draft
  | [] => .ok d
  | .marker :: .word text :: rest =>
      if d.rom.isNone then fill { d with rom := some text } rest
      else fill ((d.extra "--").extra text) rest
  | .marker :: rest => fill (d.extra "--") rest
  | .word text :: .marker :: rest =>
      if d.rom.isNone then fill { d with rom := some text } rest
      else fill ((d.extra text).extra "--") rest
  | .word text :: rest =>
      if d.rom.isNone then fill { d with rom := some text } rest else fill (d.extra text) rest
  | .unknown text :: rest => fill (d.extra text) rest
  | .cluster letters :: _ => .error (helpOr letters)
  | .option flag (some text) :: rest =>
      if flag.takesValue then do fill (← d.setValue flag text) rest
      else .error (.usage (.valueUnwanted flag text))
  | .option flag none :: rest =>
      if flag.takesValue then
        match rest with
        | .word text :: rest => do fill (← d.setValue flag text) rest
        | _ => .error (.usage (.valueMissing flag))
      else if flag = .help then .error .help
      else fill { d with options := d.options.switch flag } rest

def Draft.finish (d : Draft) : Except Refusal Options :=
  match d.rom with
  | none => .error (.usage .romMissing)
  | some rom =>
      if d.extras.isEmpty then .ok { d.options with rom := rom }
      else .error (.usage (.unrecognized d.extras))

def ofArguments (arguments : List String) : Except Refusal Options :=
  match Token.classifyAll arguments with
  | .error a => .error (.usage (.ambiguous a))
  | .ok tokens => do (← fill Draft.empty tokens).finish

end Options

end ChipEight
