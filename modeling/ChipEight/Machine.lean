import ChipEight.Bank
import ChipEight.CallStack
import ChipEight.Font
import ChipEight.Keypad
import ChipEight.Random.Source
import ChipEight.Screen
import ChipEight.Word

/-!
The state of the machine, and reading and writing its memory at any integer address.
-/

namespace ChipEight

abbrev Memory := Bank 12 Byte

structure Machine where
  memory : Memory
  v : Bank 4 Byte
  i : Word
  pc : Word
  stack : CallStack
  delay : Byte
  sound : Byte
  screen : Screen
  keypad : Keypad
  cycles : Nat
  sinceTick : Nat
  cyclesPerTick : Nat
  tone : Bool
  source : Source

namespace Machine

def memorySize : Nat := Bank.size 12

def registerCount : Nat := Bank.size 4

def fontBase : Address := 0x000

def programStart : Address := 0x200

def programMax : Nat := memorySize - 0x200

def frequency : Nat := 850

def timerFrequency : Nat := 60

def defaultCyclesPerTick : Nat := frequency / timerFrequency

def flag : Nibble := 0xF

def glyphAddress (digit : Nibble) : Address :=
  fontBase + BitVec.ofNat 12 (Font.glyphRows * digit.toNat)

def fresh (cyclesPerTick : Nat) (source : Source) : Machine where
  memory := (Bank.fill 0).write fontBase Font.bytes
  v := Bank.fill 0
  i := 0
  pc := programStart.setWidth 16
  stack := CallStack.empty
  delay := 0
  sound := 0
  screen := Screen.blank
  keypad := Keypad.idle
  cycles := 0
  sinceTick := 0
  cyclesPerTick
  tone := false
  source

def create (cyclesPerTick : Int) (source : Source) : Except Fault Machine :=
  if cyclesPerTick < 1 then .error (.tickTooShort cyclesPerTick)
  else .ok (fresh cyclesPerTick.toNat source)

def read (m : Machine) (address : Int) : Byte := m.memory.get (Field.address address)

def write (m : Machine) (address value : Int) : Machine :=
  { m with memory := m.memory.set (Field.address address) (Field.byte value) }

theorem read_write (m : Machine) (a b value : Int) :
    (m.write a value).read b = if a % 4096 = b % 4096 then Field.byte value else m.read b := by
  simp [read, write, Bank.get_set, Field.address_eq_address_iff]

theorem read_congr (m : Machine) {a b : Int} (h : a % 4096 = b % 4096) : m.read a = m.read b :=
  congrArg m.memory.get ((Field.address_eq_address_iff a b).mpr h)

/-- The word at the program counter, high byte first. -/
def fetch (m : Machine) : Word :=
  let a := m.pc.address
  Word.ofBytes (m.memory.get a) (m.memory.get (a + 1))

def push (m : Machine) (value : Int) : Machine :=
  { m with stack := m.stack.push (Field.word value) }

def pop (m : Machine) : Word × Machine :=
  let (w, stack) := m.stack.pop
  (w, { m with stack })

def setKey (m : Machine) (key : Int) (pressed : Bool) : Except Fault Machine :=
  (m.keypad.setKey key pressed).map fun keypad => { m with keypad }

end Machine

end ChipEight
