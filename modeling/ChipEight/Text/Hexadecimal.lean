/-!
Numbers in lower-case hexadecimal, and the width at which words and addresses are shown.
-/

namespace ChipEight.Text

def hexDigits (n : Nat) : List Char := Nat.toDigits 16 n

/-- Sign, `0x` and digits, padded with zeros after the mark to six characters in all. -/
def hexWord (n : Int) : String :=
  let mark := if n < 0 then "-0x" else "0x"
  let digits := hexDigits n.natAbs
  mark ++ String.ofList (List.replicate (6 - mark.length - digits.length) '0' ++ digits)

end ChipEight.Text
