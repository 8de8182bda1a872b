import ChipEight.Limits
import ChipEight.Screen

/-!
Pictures of any size, shown as text or in two colours. A cell is lit unless it is zero; the text has
one line to a row, and the coloured picture is addressed by column first.
-/

namespace ChipEight

abbrev Picture (height width : Nat) := Vector (Vector Byte width) height

structure Colour where
  red : Byte
  green : Byte
  blue : Byte
  deriving DecidableEq, Repr

namespace Colour

def white : Colour := ⟨255, 255, 255⟩

def black : Colour := ⟨0, 0, 0⟩

def component (n : Int) : Except Fault Byte :=
  if ¬ FitsWord n then .error .wordOverflow
  else if 0 ≤ n ∧ n < 256 then .ok (BitVec.ofInt 8 n)
  else .error (.componentOutOfRange n)

/-- A single component stands for all three. -/
def ofComponents? : List Byte → Option Colour
  | [all] => some ⟨all, all, all⟩
  | [red, green, blue] => some ⟨red, green, blue⟩
  | _ => none

/-- A colour given by its components, which are looked at before they are counted. -/
def ofInts (components : List Int) (miscounted : Fault) : Except Fault Colour := do
  match ofComponents? (← components.mapM component) with
  | some colour => return colour
  | none => throw miscounted

def bytes (c : Colour) : List Byte := [c.red, c.green, c.blue]

end Colour

namespace Picture

variable {height width : Nat}

def lit (p : Picture height width) (row : Fin height) (column : Fin width) : Bool :=
  p[row][column] != 0

def ofScreen (s : Screen) : Picture Screen.height Screen.width :=
  Vector.ofFn fun row => Vector.ofFn fun column =>
    if s.lit (BitVec.ofNat 5 row) (BitVec.ofNat 6 column) then 1 else 0

def line (on off : String) (cells : List Byte) : String :=
  String.join (cells.map fun cell => if cell != 0 then on else off)

def text (p : Picture height width) (on off : String) : String :=
  "\n".intercalate (p.toList.map fun row => line on off row.toList)

def coloured (p : Picture height width) (lighted dark : Colour) :
    Vector (Vector Colour height) width :=
  Vector.ofFn fun column => Vector.ofFn fun row => if p.lit row column then lighted else dark

/-- Which cells of a coloured picture have the colour of lit ones, row by row. -/
def patternOfColours (lighted : Colour) (colours : Vector (Vector Colour height) width) :
    List (List Bool) :=
  List.ofFn fun row : Fin height => List.ofFn fun column : Fin width =>
    (colours.get column).get row == lighted

def litCells (p : Picture height width) : Nat :=
  ((p.toList.flatMap Vector.toList).filter (· != 0)).length

/-- The picture in two colours given by their components. The dark one is laid down first. -/
def painted (p : Picture height width) (lighted dark : List Int) :
    Except Fault (Vector (Vector Colour height) width) := do
  let dark ← Colour.ofInts dark (.darkMiscounted dark.length [width, height, 3])
  let lighted ← Colour.ofInts lighted (.lightedMiscounted lighted.length [p.litCells, 3])
  return p.coloured lighted dark

end Picture

/-- A screen in colours, addressed by column first. -/
abbrev Pixels := Vector (Vector Colour Screen.height) Screen.width

namespace Screen

def text (s : Screen) : String := (Picture.ofScreen s).text "#" "."

def pixels (s : Screen) : Pixels := (Picture.ofScreen s).coloured Colour.white Colour.black

def ofPattern (rows : List (List Bool)) : Screen :=
  Bank.ofFn fun row => (BitVec.ofBoolListBE (rows.getD row.toNat [])).setWidth 64

end Screen

/-- The screen with the white cells lit. -/
def Pixels.screen (pixels : Pixels) : Screen :=
  .ofPattern (Picture.patternOfColours Colour.white pixels)

/-- Pixels stand for the screen that they show. -/
instance : Coe Pixels Screen := ⟨Pixels.screen⟩

end ChipEight
