import ChipEight.Host
import ChipEight.Keymap
import ChipEight.Keypad

/-!
A window on the host: it shows the screen enlarged and hands the host's key events to the keypad.
Closing the window or pressing Escape asks to quit; the events behind that one are lost.
-/

namespace ChipEight

structure Window where
  scale : Nat
  title : String
  running : Bool
  deriving DecidableEq, Repr

namespace Window

def defaultScale : Nat := 15

def defaultTitle : String := "CHIP-8"

def escape : Int := 27

def create (scale : Int) (title : String) : Window := ⟨(max 1 scale).toNat, title, false⟩

def width (w : Window) : Nat := Screen.width * w.scale

def height (w : Window) : Nat := Screen.height * w.scale

def start (w : Window) (h : Host) : Except Fault Unit × Window × Host :=
  if h.missing then (.error .hostMissing, w, h)
  else
    match ((h.record .init).record (.caption w.title)).setMode w.width w.height with
    | (.error message, h) => (.error (.displayUnavailable message), w, h.record .quitVideo)
    | (.ok (), h) =>
        let surface := Call.surface Screen.width Screen.height 0 32
        (.ok (), { w with running := true }, h.record surface)

def stop (w : Window) (h : Host) : Window × Host :=
  if w.running then ({ w with running := false }, h.record .quitVideo) else (w, h)

/-- Hands a batch of events to the keypad, up to the first that asks to quit. -/
def deliver : List Event → Keypad → Bool × Keypad
  | [], k => (true, k)
  | .quit :: _, k => (false, k)
  | .down code :: rest, k =>
      if code = escape then (false, k)
      else
        match Keymap.standard.key? code with
        | some key => deliver rest (k.set key true)
        | none => deliver rest k
  | .up code :: rest, k =>
      match Keymap.standard.key? code with
      | some key => deliver rest (k.set key false)
      | none => deliver rest k
  | .other :: rest, k => deliver rest k
  | .interrupt :: rest, k => deliver rest k

def poll (w : Window) (h : Host) (k : Keypad) : Except Fault Bool × Host × Keypad :=
  if w.running then
    match h.events with
    | (.error fault, h) => (.error fault, h, k)
    | (.ok batch, h) =>
        let (stays, k) := deliver batch k
        (.ok stays, h, k)
  else (.ok false, h, k)

def render (w : Window) (s : Screen) (h : Host) : Host :=
  if w.running then
    (((h.record (.blitArray s.pixels)).record (.scale w.width w.height)).record
      (.blit w.width w.height)).record .flip
  else h

end Window

end ChipEight
