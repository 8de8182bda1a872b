import ChipEight.Keypad
import ChipEight.Limits
import ChipEight.Screen

/-!
A display without a window. It keeps the latest frames and delivers injected key events at the next
poll, in the order of their injection. It may be given a number of polls after which it asks to
quit.
-/

namespace ChipEight

structure Recorder where
  keep : Option Nat
  /-- The kept frames, the latest first. -/
  kept : List Screen
  frames : Nat
  pending : List (Int × Bool)
  pollsLeft : Option Nat
  deriving DecidableEq

namespace Recorder

def defaultKeep : Nat := 64

def empty (keep pollsLeft : Option Nat) : Recorder := ⟨keep, [], 0, [], pollsLeft⟩

def create (keep : Option Int) (pollsLeft : Option Nat) : Except Fault Recorder :=
  match keep with
  | none => .ok (empty none pollsLeft)
  | some n =>
      if ¬ FitsWord n then .error .keepTooLarge
      else if n < 0 then .error .negativeKeep
      else .ok (empty (some n.toNat) pollsLeft)

def snapshots (r : Recorder) : List Screen := r.kept.reverse

def last? (r : Recorder) : Option Screen := r.kept.head?

def inject (r : Recorder) (key : Int) (pressed : Bool) : Recorder :=
  { r with pending := r.pending ++ [(key, pressed)] }

/-- Hands key events to the keypad. One that names no key is lost, and those behind it stay. -/
def deliver : List (Int × Bool) → Keypad → Except Fault Unit × List (Int × Bool) × Keypad
  | [], k => (.ok (), [], k)
  | (key, pressed) :: rest, k =>
      match k.setKey key pressed with
      | .ok k => deliver rest k
      | .error fault => (.error fault, rest, k)

def poll (r : Recorder) (k : Keypad) : Except Fault Bool × Recorder × Keypad :=
  if r.pollsLeft = some 0 then (.ok false, r, k)
  else
    let (result, pending, k) := deliver r.pending k
    (result.map fun _ => true,
      { r with pending := pending, pollsLeft := r.pollsLeft.map (· - 1) }, k)

def render (r : Recorder) (s : Screen) : Recorder :=
  let kept := match r.keep with
    | none => s :: r.kept
    | some n => (s :: r.kept).take n
  { r with kept := kept, frames := r.frames + 1 }

end Recorder

end ChipEight
