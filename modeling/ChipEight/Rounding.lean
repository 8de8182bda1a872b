/-!
Rounding of natural numbers to the nearest multiple of a unit, and to the numbers that a double can
hold.
-/

namespace ChipEight.Rounding

/-- The nearest multiple of `unit`, the even one if two are equally near, in units. -/
def roundTo (unit n : Nat) : Nat :=
  let q := n / unit
  let r := n % unit
  if 2 * r < unit ∨ (2 * r = unit ∧ q % 2 = 0) then q else q + 1

/-- The nearest double, ties to the even one, as a whole number of the units `1 <<< shift`. -/
def nearest (n : Nat) : Nat × Nat :=
  let shift := n.log2 - 52
  (roundTo (1 <<< shift) n, shift)

end ChipEight.Rounding
