import ChipEight.Limits

/-! One period of a square wave, low for the first half and high after. -/

namespace ChipEight

/-- The samples of one channel; every channel has the same. -/
structure Wave where
  channels : Nat
  samples : List Int
  deriving DecidableEq, Repr

namespace Wave

def sampleRate : Nat := 44100

def tonePeriod : Nat := 100

def toneAmplitude : Int := 2048

def sampleBytes : Nat := 2

def sample (n : Int) : Except Fault Int :=
  if ¬ FitsWord n then .error .wordOverflow
  else if -32768 ≤ n ∧ n < 32768 then .ok n
  else .error (.sampleOutOfRange n)

/-- The table of one channel is made and filled before the channels are looked at. No table takes
more bytes than `memory`. -/
def square (channels period amplitude : Int) (memory : Nat := Table.addressable) :
    Except Fault Wave := do
  if ¬ FitsWord period then throw .dimensionTooLarge
  let length ← Table.dimension period
  Table.allocate memory sampleBytes [length]
  let high ← sample amplitude
  let low ← sample (-amplitude)
  if ¬ FitsWord channels then throw .wordOverflow
  let count ← Table.dimension channels
  Table.allocate memory sampleBytes [length, count]
  let half := length / 2
  return ⟨count, List.replicate half low ++ List.replicate (length - half) high⟩

/-- The sizes of the table of samples, which has one axis less for a single channel. -/
def shape (w : Wave) : List Nat :=
  if w.channels = 1 then [w.samples.length] else [w.samples.length, w.channels]

def negatives (w : Wave) : Nat := w.channels * (w.samples.filter (· < 0)).length

end Wave

end ChipEight
