import ChipEight.Rounding

/-!
Sizes in memory as text: a number of bytes in the largest unit that it reaches, each unit 1024 times
the one before, with three digits or, from a thousand on, all of them. The point stays where no
digit follows it.
-/

namespace ChipEight.Text

def sizeUnits : List String := ["bytes", "KiB", "MiB", "GiB", "TiB", "PiB", "EiB"]

def twoDigits (n : Nat) : String := if n < 10 then s!"0{n}" else s!"{n}"

/-- The quotient of `n` and `unit` with three digits, or with all those before the point. -/
def threeDigits (unit n : Nat) : String :=
  let hundredths := Rounding.roundTo unit (100 * n)
  let tenths := Rounding.roundTo unit (10 * n)
  if hundredths < 1000 then s!"{hundredths / 100}.{twoDigits (hundredths % 100)}"
  else if tenths < 1000 then s!"{tenths / 10}.{tenths % 10}"
  else s!"{Rounding.roundTo unit n}."

/-- How often a number of bytes is scaled down by 1024. One that would be shown as 1024 goes on to
the next unit. -/
def sizeLevel (bytes : Nat) : Nat :=
  let level := bytes.log2 / 10
  let level := if Rounding.roundTo (1 <<< (10 * level)) bytes = 1024 then level + 1 else level
  min level (sizeUnits.length - 1)

def size (bytes : Nat) : String :=
  let (mantissa, shift) := Rounding.nearest bytes
  let bytes := mantissa <<< shift
  match sizeLevel bytes with
  | 0 => s!"{bytes} bytes"
  | level => threeDigits (1 <<< (10 * level)) bytes ++ " " ++ sizeUnits.getD level ""

end ChipEight.Text
