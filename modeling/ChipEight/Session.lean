import ChipEight.Image
import ChipEight.Machine.Step

/-!
A machine with someone listening to its tone.

A listener answers its `n`-th call, which may fail; the failure leaves the machine as it was when
the call was made. Without a listener every edge passes unheard.
-/

namespace ChipEight

abbrev Listener := Nat → Option String

structure Session where
  machine : Machine
  listener : Option Listener
  /-- Every value the listener has been called with, oldest first. -/
  heard : List Bool

inductive Command where
  | step
  | tick
  | key (key : Int) (pressed : Bool)
  | load (image : Image)
  | write (address value : Int)
  | push (value : Int)
  | pop

namespace Session

def start (machine : Machine) (listener : Option Listener) : Session := ⟨machine, listener, []⟩

def settle (s : Session) (turn : Turn) : Except Fault Unit × Session :=
  match turn.edge, s.listener with
  | some on, some respond =>
      let heard := s.heard ++ [on]
      match respond s.heard.length with
      | none => (.ok (), { s with machine := turn.settled, heard })
      | some message => (.error (.listener message), { s with machine := turn.atEdge, heard })
  | _, _ => (.ok (), { s with machine := turn.settled })

def step (s : Session) : Except Fault Unit × Session :=
  match s.machine.step with
  | .ok turn => s.settle turn
  | .error fault => (.error fault, s)

def tick (s : Session) : Except Fault Unit × Session := s.settle s.machine.tick

/-- Carries out a command; a load answers with the bytes installed and a pop with the word. -/
def perform (s : Session) : Command → Except Fault (Option Nat) × Session
  | .step => let (r, s) := s.step; (r.map fun _ => none, s)
  | .tick => let (r, s) := s.tick; (r.map fun _ => none, s)
  | .key key pressed =>
      match s.machine.setKey key pressed with
      | .ok machine => (.ok none, { s with machine })
      | .error fault => (.error fault, s)
  | .load image =>
      let loading := s.machine.load image
      (loading.count.map some, { s with machine := loading.machine })
  | .write address value => (.ok none, { s with machine := s.machine.write address value })
  | .push value => (.ok none, { s with machine := s.machine.push value })
  | .pop => let (w, machine) := s.machine.pop; (.ok (some w.toNat), { s with machine })

end Session

end ChipEight
