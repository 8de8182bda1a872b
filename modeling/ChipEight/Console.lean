import ChipEight.Beeper
import ChipEight.Display
import ChipEight.Files
import ChipEight.Image
import ChipEight.Machine.Step
import ChipEight.Period

/-!
A machine wired to a display and a beeper, and its run loop.

Each step polls the display, executes one instruction and renders when a frame is due. A run ends at
its limit, when the display asks to quit, or with a fault; the beeper is silent after it. A request
to quit is remembered: a later run still takes one step before it notices.
-/

namespace ChipEight

structure Console where
  machine : Machine
  display : Display
  beeper : Beeper
  host : Host
  rate : Nat
  cyclesPerFrame : Nat
  sinceFrame : Nat
  quitRequested : Bool
  /-- How often the run loop has slept for one period. -/
  sleeps : Nat

namespace Console

def defaultFrameRate : Nat := 60

def create (machine : Machine) (display : Display) (beeper : Beeper) (host : Host)
    (rate frameRate : Int) : Except Fault Console :=
  if rate < 1 ∨ frameRate < 1 then .error .rateNotPositive
  else .ok {
    machine, display, beeper, host
    rate := rate.toNat
    cyclesPerFrame := max 1 (rate.toNat / frameRate.toNat)
    sinceFrame := 0
    quitRequested := false
    sleeps := 0 }

def ring (c : Console) (on : Bool) : Console :=
  let (beeper, host) := c.beeper.ring on c.host
  { c with beeper, host }

def silence (c : Console) : Console :=
  let (beeper, host) := c.beeper.stop c.host
  { c with beeper, host }

def settle (c : Console) (turn : Turn) : Console :=
  match turn.edge with
  | none => { c with machine := turn.settled }
  | some on => { c with machine := turn.settled }.ring on

/-- Executes one instruction without a poll or a frame. -/
def execute (c : Console) : Except Fault Unit × Console :=
  match c.machine.step with
  | .error fault => (.error fault, c)
  | .ok turn => (.ok (), c.settle turn)

def tick (c : Console) : Console := c.settle c.machine.tick

def render (c : Console) : Console :=
  let (display, host) := c.display.render c.machine.screen c.host
  { c with display, host }

def countFrame (c : Console) : Console :=
  if c.cyclesPerFrame ≤ c.sinceFrame + 1 then { c with sinceFrame := 0 }.render
  else { c with sinceFrame := c.sinceFrame + 1 }

def poll (c : Console) : Except Fault Bool × Console :=
  let p := c.display.poll c.host c.machine.keypad
  (p.result, { c with
    display := p.display
    host := p.host
    machine := { c.machine with keypad := p.keypad } })

def step (c : Console) : Except Fault Unit × Console :=
  match c.poll with
  | (.error fault, c) => (.error fault, c)
  | (.ok false, c) => (.ok (), { c with quitRequested := true })
  | (.ok true, c) =>
      match c.execute with
      | (.error fault, c) => (.error fault, c)
      | (.ok (), c) => (.ok (), c.countFrame)

def sleep (c : Console) : Console := { c with sleeps := c.sleeps + 1 }

inductive Ending where
  | limit
  | quit
  | fault (f : Fault)
  deriving DecidableEq, Repr

/-- At most `n` more instructions, after `executed` of them. -/
def loop (realtime : Bool) (c : Console) (executed : Nat) : Nat → Ending × Nat × Console
  | 0 => (.limit, executed, c)
  | n + 1 =>
      match c.step with
      | (.error f, c) => (.fault f, executed, c)
      | (.ok (), c) =>
          if c.quitRequested then (.quit, executed, c)
          else loop realtime (if realtime then c.sleep else c) (executed + 1) n

def conclude : Ending × Nat × Console → Except Fault Nat × Console
  | (.fault f, _, c) => (.error f, c.silence)
  | (_, executed, c) => (.ok executed, c.silence)

/-- Runs `limit` instructions, or without a limit until something else ends the run; `none` if
nothing has after `patience` instructions. A rate without a period is refused at once. -/
def run (c : Console) (limit : Option Int) (realtime : Bool) (patience : Nat) :
    Option (Except Fault Nat × Console) :=
  match Period.rate? c.rate with
  | none => some (.error .rateTooLarge, c)
  | some _ =>
      match limit with
      | some n => some (conclude (loop realtime c 0 n.toNat))
      | none =>
          match loop realtime c 0 patience with
          | (.limit, _, _) => none
          | ended => some (conclude ended)

def close (c : Console) : Console :=
  let (beeper, host) := c.beeper.close c.host
  let (display, host) := c.display.stop host
  { c with beeper, display, host }

def start (c : Console) : Except Fault Unit × Console :=
  let (result, display, host) := c.display.start c.host
  (result, { c with display, host })

def load (c : Console) (image : Image) : Except Fault Nat × Console :=
  let loading := c.machine.load image
  (loading.count, { c with machine := loading.machine })

def loadFile (c : Console) (fs : FileSystem) (path : String) : Except Fault Nat × Console :=
  let (count, machine) := c.machine.loadFile fs path
  (count, { c with machine })

/-- Only a recorder takes key events that no host has delivered. -/
def inject (c : Console) (key : Int) (pressed : Bool) : Except Fault Unit × Console :=
  match c.display with
  | .recorder r => (.ok (), { c with display := .recorder (r.inject key pressed) })
  | .window _ => (.error .cannotInject, c)

end Console

end ChipEight
