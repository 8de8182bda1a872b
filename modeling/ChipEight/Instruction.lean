import ChipEight.Word

/-!
The thirty-five instructions and their reading from a word. A word outside the set is read as
`none`.
-/

namespace ChipEight

inductive Arithmetic where
  | copy
  | or
  | and
  | xor
  | add
  | subtract
  | shiftRight
  | subtractFrom
  | shiftLeft
  deriving DecidableEq, Repr

inductive Instruction where
  | clear
  | ret
  | jump (target : Address)
  | call (target : Address)
  | skipIfByte (x : Nibble) (k : Byte)
  | skipUnlessByte (x : Nibble) (k : Byte)
  | skipIfEqual (x y : Nibble)
  | setByte (x : Nibble) (k : Byte)
  | addByte (x : Nibble) (k : Byte)
  | arithmetic (op : Arithmetic) (x y : Nibble)
  | skipUnlessEqual (x y : Nibble)
  | setIndex (target : Address)
  | jumpOffset (target : Address)
  | random (x : Nibble) (k : Byte)
  | draw (x y : Nibble) (rows : Nibble)
  | skipIfDown (x : Nibble)
  | skipIfUp (x : Nibble)
  | readDelay (x : Nibble)
  | awaitRelease (x : Nibble)
  | setDelay (x : Nibble)
  | setSound (x : Nibble)
  | addIndex (x : Nibble)
  | pointAtGlyph (x : Nibble)
  | storeDecimal (x : Nibble)
  | store (x : Nibble)
  | restore (x : Nibble)
  deriving DecidableEq, Repr

def Arithmetic.ofNibble? : Nibble → Option Arithmetic
  | 0x0#4 => some .copy
  | 0x1#4 => some .or
  | 0x2#4 => some .and
  | 0x3#4 => some .xor
  | 0x4#4 => some .add
  | 0x5#4 => some .subtract
  | 0x6#4 => some .shiftRight
  | 0x7#4 => some .subtractFrom
  | 0xE#4 => some .shiftLeft
  | _ => none

namespace Instruction

def system? : Byte → Option Instruction
  | 0xE0#8 => some .clear
  | 0xEE#8 => some .ret
  | _ => none

def key? (x : Nibble) : Byte → Option Instruction
  | 0x9E#8 => some (.skipIfDown x)
  | 0xA1#8 => some (.skipIfUp x)
  | _ => none

def misc? (x : Nibble) : Byte → Option Instruction
  | 0x07#8 => some (.readDelay x)
  | 0x0A#8 => some (.awaitRelease x)
  | 0x15#8 => some (.setDelay x)
  | 0x18#8 => some (.setSound x)
  | 0x1E#8 => some (.addIndex x)
  | 0x29#8 => some (.pointAtGlyph x)
  | 0x33#8 => some (.storeDecimal x)
  | 0x55#8 => some (.store x)
  | 0x65#8 => some (.restore x)
  | _ => none

def ofWord? (w : Word) : Option Instruction :=
  match w.family with
  | 0x0#4 => system? w.byte
  | 0x1#4 => some (.jump w.address)
  | 0x2#4 => some (.call w.address)
  | 0x3#4 => some (.skipIfByte w.x w.byte)
  | 0x4#4 => some (.skipUnlessByte w.x w.byte)
  | 0x5#4 => if w.nibble = 0 then some (.skipIfEqual w.x w.y) else none
  | 0x6#4 => some (.setByte w.x w.byte)
  | 0x7#4 => some (.addByte w.x w.byte)
  | 0x8#4 => (Arithmetic.ofNibble? w.nibble).map fun op => .arithmetic op w.x w.y
  | 0x9#4 => some (.skipUnlessEqual w.x w.y)
  | 0xA#4 => some (.setIndex w.address)
  | 0xB#4 => some (.jumpOffset w.address)
  | 0xC#4 => some (.random w.x w.byte)
  | 0xD#4 => some (.draw w.x w.y w.nibble)
  | 0xE#4 => key? w.x w.byte
  | _ => misc? w.x w.byte

end Instruction

end ChipEight
