import ChipEight.Picture
import ChipEight.Wave

/-!
The machine that the program runs on, as far as the program can see it: the events it delivers, the
calls that it will refuse, and every call made so far.
-/

namespace ChipEight

inductive Event where
  | quit
  | down (code : Int)
  | up (code : Int)
  | other
  | interrupt
  deriving DecidableEq, Repr

inductive Call where
  | init
  | caption (title : String)
  | setMode (width height : Nat)
  | surface (width height flags depth : Nat)
  | quitVideo
  | blitArray (pixels : Pixels)
  | scale (width height : Nat)
  | blit (width height : Nat)
  | flip
  | mixerInit (frequency : Nat) (size : Int) (channels : Nat)
  | makeSound (wave : Wave)
  | play (loops : Int)
  | stop
  deriving DecidableEq

structure Host where
  /-- What the coming polls deliver; later polls deliver nothing. -/
  batches : List (List Event)
  /-- Whether the coming attempts to open a window fail, and why; later attempts succeed. -/
  videoErrors : List (Option String)
  mixer : Option Int
  /-- The channels that an initialised mixer will have. -/
  channels : Int
  mixerError : Option String
  /-- The graphics library is not installed. -/
  missing : Bool
  /-- The calls made, the latest first. -/
  log : List Call
  /-- The most bytes that a table of samples is given. -/
  memory : Nat := Table.addressable
  deriving DecidableEq

namespace Host

/-- Signed samples of sixteen bits. -/
def sampleFormat : Int := -16

def defaultChannels : Nat := 2

def idle : Host where
  batches := []
  videoErrors := []
  mixer := none
  channels := defaultChannels
  mixerError := none
  missing := false
  log := []

def bare : Host := { idle with missing := true }

def record (h : Host) (c : Call) : Host := { h with log := c :: h.log }

def calls (h : Host) : List Call := h.log.reverse

@[simp] theorem calls_record (h : Host) (c : Call) : (h.record c).calls = h.calls ++ [c] := by
  simp [record, calls]

/-- Takes the next batch of events. An interrupt in it leaves none of its events to deliver. -/
def events (h : Host) : Except Fault (List Event) × Host :=
  match h.batches with
  | [] => (.ok [], h)
  | batch :: rest =>
      (if .interrupt ∈ batch then .error .interrupted else .ok batch, { h with batches := rest })

def setMode (h : Host) (width height : Nat) : Except String Unit × Host :=
  let asked := { h with videoErrors := h.videoErrors.tail }.record (.setMode width height)
  match h.videoErrors with
  | some message :: _ => (.error message, asked)
  | _ => (.ok (), asked)

def openMixer (h : Host) : Except Fault Int × Host :=
  match h.mixer with
  | some channels => (.ok channels, h)
  | none =>
      let asked := h.record (.mixerInit Wave.sampleRate sampleFormat defaultChannels)
      match h.mixerError with
      | some message => (.error (.mixer message), asked)
      | none => (.ok h.channels, { asked with mixer := some h.channels })

end Host

end ChipEight
