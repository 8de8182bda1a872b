import ChipEight.Host

/-!
The beeper sounds a looping tone on the host, or is silent and only remembers what was asked of it.
A tone is started when it is not playing and stopped when it is, never twice.
-/

namespace ChipEight

inductive Beeper where
  | tone (playing : Bool)
  | silent (playing : Bool)
  deriving DecidableEq, Repr

namespace Beeper

def forever : Int := -1

def playing : Beeper → Bool
  | tone playing => playing
  | silent playing => playing

def create (h : Host) : Except Fault Beeper × Host :=
  if h.missing then (.error .hostMissing, h)
  else
    match h.openMixer with
    | (.error fault, h) => (.error fault, h)
    | (.ok channels, h) =>
        match Wave.square channels Wave.tonePeriod Wave.toneAmplitude h.memory with
        | .error fault => (.error fault, h)
        | .ok wave => (.ok (tone false), h.record (.makeSound wave))

theorem eq_tone_of_create {h k : Host} {b : Beeper} (hb : create h = (.ok b, k)) :
    b = tone false := by
  unfold create at hb
  split at hb
  · cases hb
  · split at hb
    · cases hb
    · split at hb
      · cases hb
      · cases hb
        rfl

def play : Beeper → Host → Beeper × Host
  | tone true, h => (tone true, h)
  | tone false, h => (tone true, h.record (.play forever))
  | silent _, h => (silent true, h)

def stop : Beeper → Host → Beeper × Host
  | tone true, h => (tone false, h.record .stop)
  | tone false, h => (tone false, h)
  | silent _, h => (silent false, h)

def close (b : Beeper) (h : Host) : Beeper × Host := b.stop h

def ring (b : Beeper) (on : Bool) (h : Host) : Beeper × Host := if on then b.play h else b.stop h

@[simp] theorem playing_play (b : Beeper) (h : Host) : (b.play h).1.playing = true := by
  cases b with
  | tone p => cases p <;> rfl
  | silent p => rfl

@[simp] theorem playing_stop (b : Beeper) (h : Host) : (b.stop h).1.playing = false := by
  cases b with
  | tone p => cases p <;> rfl
  | silent p => rfl

@[simp] theorem playing_ring (b : Beeper) (on : Bool) (h : Host) :
    (b.ring on h).1.playing = on := by
  cases on <;> simp [ring]

end Beeper

end ChipEight
