import ChipEight.Word
import ChipEight.Bank

/-!
The screen: thirty-two rows of sixty-four cells, the leftmost cell in the highest bit of its row.
A sprite is a list of bytes, one to a row; drawing flips cells and reports whether a lit one went
dark. Rows and columns wrap.
-/

namespace ChipEight

abbrev Screen := Bank 5 (BitVec 64)

namespace Screen

def width : Nat := 64

def height : Nat := 32

def blank : Screen := Bank.fill 0

def lit (s : Screen) (row : BitVec 5) (column : BitVec 6) : Bool :=
  (s.get row).getMsbD column.toNat

/-- The cells of a row that a sprite byte covers when its first bit stands at `column`. -/
def stamp (bits : Byte) (column : BitVec 6) : BitVec 64 :=
  (bits.setWidth 64 <<< 56).rotateRight column.toNat

def draw (s : Screen) (column : BitVec 6) (row : BitVec 5) : List Byte → Screen × Bool
  | [] => (s, false)
  | bits :: rest =>
      let mask := stamp bits column
      let (drawn, hit) := draw (s.set row (s.get row ^^^ mask)) column (row + 1) rest
      (drawn, s.get row &&& mask != 0 || hit)

@[simp] theorem draw_nil (s : Screen) (column : BitVec 6) (row : BitVec 5) :
    s.draw column row [] = (s, false) := rfl

end Screen

end ChipEight
