import ChipEight.Arguments.Options
import ChipEight.Picture

/-!
The program as a command: what it prints, what it leaves behind on the host and how it ends.
Printing never fails here, and an interrupt comes with the events of a poll or not at all.
-/

namespace ChipEight

inductive Exit where
  | returned (status : Nat)
  | exited (code : Nat)
  | raised (fault : Fault)
  deriving DecidableEq, Repr

structure Outcome where
  exit : Exit
  output : String
  errors : String
  host : Host
  sleeps : Nat
  rate : Nat

namespace CommandLine

def headlessCycles : Int := 10000

def usageText (e : UsageError) : String := Usage.synopsis ++ "chip8: error: " ++ e.message ++ "\n"

def unreadable (rom : String) (fault : Fault) : String :=
  s!"[chip8] cannot read ROM '{rom}': {fault.message}\n"

def loaded (size : Nat) (rom : String) : String := s!"[chip8] loaded {size} bytes from '{rom}'\n"

def halted (fault : Fault) : String := s!"[chip8] halted: {fault.message}\n"

def interrupted : String := "\nInterrupted.\n"

def noBeeper (fault : Fault) : String := s!"[audio] beeper unavailable: {fault.message}\n"

def noWindow (fault : Fault) : String :=
  match fault with
  | .hostMissing =>
      s!"[display] pygame not available: {fault.message}\n" ++
      "[display] Install with: pip install pygame  (or run with --headless)\n"
  | _ =>
      s!"[display] cannot open window: {fault.message}\n" ++
      "[display] Run with --headless on hosts without a display\n"

structure FrontEnd where
  display : Display
  beeper : Beeper
  errors : String

/-- A host tone unless muted; without one the program goes on in silence. -/
def openBeeper (mute : Bool) (h : Host) : Beeper × String × Host :=
  if mute then (.silent false, "", h)
  else
    match Beeper.create h with
    | (.ok beeper, h) => (beeper, "", h)
    | (.error fault, h) => (.silent false, noBeeper fault, h)

def openFrontEnd (o : Options) (h : Host) : Except Fault FrontEnd × Host :=
  if o.headless then
    (.ok ⟨.recorder (Recorder.empty (some Recorder.defaultKeep) none), .silent false, ""⟩, h)
  else
    match o.scale.given .blankScale with
    | .error fault => (.error fault, h)
    | .ok scale =>
        match (Window.create scale Window.defaultTitle).start h with
        | (.error fault, _, h) => (.error fault, h)
        | (.ok (), window, h) =>
            let (beeper, errors, h) := openBeeper o.mute h
            (.ok ⟨.window window, beeper, errors⟩, h)

/-- A seed makes draws that can be repeated; without one they come from `source`. -/
def seeded (o : Options) (source : Source) : Except Fault Source :=
  match o.seed with
  | none => .ok source
  | some seed => (seed.given .blankSeed).map Source.ofSeed

/-- A speed that is too low is found before the frame rate is looked at. -/
def openConsole (o : Options) (machine : Machine) (frontEnd : FrontEnd) (h : Host) :
    Except Fault Console := do
  let speed ← o.speed.given .blankRate
  if speed < 1 then throw .rateNotPositive
  Console.create machine frontEnd.display frontEnd.beeper h speed (← o.fps.given .blankRate)

def limit (o : Options) : Option Setting :=
  if o.headless then some (o.cycles.getD (.number headlessCycles)) else o.cycles

/-- Runs a console up to a limit. That a limit is blank is noticed only where the first instruction
would start. -/
def runTo (limit : Option Setting) (c : Console) (realtime : Bool) (patience : Nat) :
    Option (Except Fault Nat × Console) :=
  match limit with
  | none => c.run none realtime patience
  | some (.number n) => c.run (some n) realtime patience
  | some .blank =>
      (c.run (some 0) realtime patience).map fun (result, c) =>
        (result.bind fun _ => .error .blankLimit, c)

/-- Runs a console, closes it and reports; `none` if the run is not over in time. -/
def drive (o : Options) (c : Console) (patience : Nat) (output errors : String) : Option Outcome :=
  match runTo (limit o) c (!o.headless) patience with
  | none => none
  | some (result, c) =>
      let closed := c.close
      let picture := if o.headless then closed.machine.screen.text ++ "\n" else ""
      let report (exit : Exit) (output errors : String) : Outcome :=
        ⟨exit, output, errors, closed.host, closed.sleeps, closed.rate⟩
      some <| match result with
      | .ok _ => report (.returned 0) (output ++ picture) errors
      | .error .interrupted => report (.returned 0) (output ++ interrupted ++ picture) errors
      | .error fault =>
          if fault.isMachine then
            report (.returned 1) (output ++ picture) (errors ++ halted fault)
          else report (.raised fault) output errors

/-- Everything behind the reading of the options. `source` is for runs without a seed. -/
def execute (o : Options) (fs : FileSystem) (h : Host) (source : Source) (patience : Nat) :
    Option Outcome :=
  let stop (exit : Exit) (output errors : String) (h : Host) : Option Outcome :=
    some ⟨exit, output, errors, h, 0, 0⟩
  match seeded o source with
  | .error fault => stop (.raised fault) "" "" h
  | .ok source =>
      let machine := Machine.fresh Machine.defaultCyclesPerTick source
      match machine.loadFile fs o.rom with
      | (.error fault, _) =>
          if fault.isInputOutput then stop (.returned 1) "" (unreadable o.rom fault) h
          else stop (.raised fault) "" "" h
      | (.ok size, machine) =>
          match openFrontEnd o h with
          | (.error fault, h) =>
              if fault.isWindow then stop (.returned 1) "" (noWindow fault) h
              else stop (.raised fault) "" "" h
          | (.ok frontEnd, h) =>
              match openConsole o machine frontEnd h with
              | .error fault => stop (.raised fault) "" frontEnd.errors h
              | .ok console => drive o console patience (loaded size o.rom) frontEnd.errors

def run (arguments : List String) (fs : FileSystem) (h : Host) (source : Source) (patience : Nat) :
    Option Outcome :=
  match Options.ofArguments arguments with
  | .error .help => some ⟨.exited 0, Usage.help, "", h, 0, 0⟩
  | .error (.usage e) => some ⟨.exited 2, "", usageText e, h, 0, 0⟩
  | .ok o => execute o fs h source patience

end CommandLine

end ChipEight
