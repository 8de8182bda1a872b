import ChipEight.Instruction
import ChipEight.Machine

/-!
What each instruction does to the machine, counters and timers aside.

Where an instruction writes both a register and the flag register, the flag is written last.
-/

namespace ChipEight

namespace Machine

def advance (m : Machine) : Machine := { m with pc := m.pc + 2 }

def skipIf (m : Machine) (condition : Bool) : Machine :=
  { m with pc := m.pc + if condition then 4 else 2 }

def setRegister (m : Machine) (x : Nibble) (b : Byte) : Machine := { m with v := m.v.set x b }

def flagOf (condition : Bool) : Byte := if condition then 1 else 0

def compute (a b : Byte) : Arithmetic → Byte × Option Bool
  | .copy => (b, none)
  | .or => (a ||| b, none)
  | .and => (a &&& b, none)
  | .xor => (a ^^^ b, none)
  | .add => (a + b, some (decide (255 < a.toNat + b.toNat)))
  | .subtract => (a - b, some (decide (b ≤ a)))
  | .shiftRight => (a >>> 1, some (a.getLsbD 0))
  | .subtractFrom => (b - a, some (decide (a ≤ b)))
  | .shiftLeft => (a <<< 1, some a.msb)

def arithmetic (m : Machine) (op : Arithmetic) (x y : Nibble) : Machine :=
  match compute (m.v.get x) (m.v.get y) op with
  | (result, none) => m.setRegister x result
  | (result, some f) => (m.setRegister x result).setRegister flag (flagOf f)

def address (m : Machine) : Address := m.i.address

def draw (m : Machine) (x y rows : Nibble) : Machine :=
  let column := (m.v.get x).setWidth 6
  let row := (m.v.get y).setWidth 5
  let (screen, hit) := m.screen.draw column row (m.memory.slice m.address rows.toNat)
  { m with screen := screen, v := m.v.set flag (flagOf hit) }

def random (m : Machine) (x : Nibble) (k : Byte) : Machine :=
  let (b, source) := m.source.next
  { m with v := m.v.set x (b &&& k), source }

/-- The machine with the release taken, or held at the same instruction while there is none. -/
def awaitRelease (m : Machine) (x : Nibble) : Machine :=
  match m.keypad.released with
  | none => m
  | some key =>
      { m with
        v := m.v.set x (key.setWidth 8)
        keypad := { m.keypad with released := none }
        pc := m.pc + 2 }

def decimal (b : Byte) : List Byte := [b / 100, b / 10 % 10, b % 10]

def registersUpTo (m : Machine) (x : Nibble) : List Byte := m.v.slice 0 (x.toNat + 1)

def keyDown (m : Machine) (x : Nibble) : Bool := m.keypad.down.get ((m.v.get x).setWidth 4)

def execute (m : Machine) : Instruction → Machine
  | .clear => { m with screen := Screen.blank }.advance
  | .ret =>
      let (w, stack) := m.stack.pop
      { m with stack, pc := w + 2 }
  | .jump target => { m with pc := target.setWidth 16 }
  | .call target => { m with stack := m.stack.push m.pc, pc := target.setWidth 16 }
  | .skipIfByte x k => m.skipIf (m.v.get x == k)
  | .skipUnlessByte x k => m.skipIf (m.v.get x != k)
  | .skipIfEqual x y => m.skipIf (m.v.get x == m.v.get y)
  | .setByte x k => (m.setRegister x k).advance
  | .addByte x k => (m.setRegister x (m.v.get x + k)).advance
  | .arithmetic op x y => (m.arithmetic op x y).advance
  | .skipUnlessEqual x y => m.skipIf (m.v.get x != m.v.get y)
  | .setIndex target => { m with i := target.setWidth 16 }.advance
  | .jumpOffset target => { m with pc := target.setWidth 16 + (m.v.get 0).setWidth 16 }
  | .random x k => (m.random x k).advance
  | .draw x y rows => (m.draw x y rows).advance
  | .skipIfDown x => m.skipIf (m.keyDown x)
  | .skipIfUp x => m.skipIf (!m.keyDown x)
  | .readDelay x => (m.setRegister x m.delay).advance
  | .awaitRelease x => m.awaitRelease x
  | .setDelay x => { m with delay := m.v.get x }.advance
  | .setSound x => { m with sound := m.v.get x }.advance
  | .addIndex x => { m with i := m.i + (m.v.get x).setWidth 16 }.advance
  | .pointAtGlyph x =>
      { m with i := (glyphAddress ((m.v.get x).setWidth 4)).setWidth 16 }.advance
  | .storeDecimal x =>
      { m with memory := m.memory.write m.address (decimal (m.v.get x)) }.advance
  | .store x => { m with memory := m.memory.write m.address (m.registersUpTo x) }.advance
  | .restore x =>
      { m with v := m.v.write 0 (m.memory.slice m.address (x.toNat + 1)) }.advance

end Machine

end ChipEight
