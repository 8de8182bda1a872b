import ChipEight.Rounding

/-!
The time between two instructions at a whole number of instructions per second.

The rate is rounded to the nearest number that a double can hold, ties to the even one, and its
reciprocal is taken. A rate beyond the largest double has none.
-/

namespace ChipEight.Period

/-- The least number that is too large for a double. -/
def tooLarge : Nat := (1 <<< 1024) - (1 <<< 970)

def rate? (n : Nat) : Option Float :=
  if n < tooLarge then
    let (mantissa, shift) := Rounding.nearest n
    some ((Float.ofNat mantissa).scaleB shift)
  else none

def ofRate? (n : Nat) : Option Float := (rate? n).map fun rate => 1.0 / rate

end ChipEight.Period
