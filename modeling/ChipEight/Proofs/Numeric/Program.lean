import ChipEight.Session
import Mathlib.Data.Int.Bitwise

/-!
The session in whole numbers.

A `Numeric` keeps everything in integers of any size and in lists of any length. Nothing is cut to a
width unless an instruction does so, a place that a list does not have is an error of its own, and
an error keeps whatever was changed before it. The sixteen families are carried out one statement
after the other.
-/

namespace ChipEight

structure Numeric where
  memory : List Int
  v : List Int
  i : Int
  pc : Int
  stack : List Int
  sp : Int
  delay : Int
  sound : Int
  screen : List (List Int)
  down : List Bool
  released : Option Int
  cycles : Int
  sinceTick : Int
  cyclesPerTick : Int
  tone : Bool
  source : Source
  listener : Option Listener
  heard : List Bool

inductive Trouble where
  | outOfRange
  | fault (f : Fault)

abbrev Program := EStateM Trouble Numeric

namespace Numeric

variable {α : Type}

/-! ### Places -/

def look (xs : List α) (k : Int) : Program α :=
  if 0 ≤ k then
    match xs[k.toNat]? with
    | some a => pure a
    | none => throw .outOfRange
  else throw .outOfRange

def replace (xs : List α) (k : Int) (a : α) : Program (List α) :=
  if 0 ≤ k ∧ k < xs.length then pure (xs.set k.toNat a) else throw .outOfRange

def readByte (address : Int) : Program Int := do
  let n ← get
  look n.memory (address % 4096)

def writeByte (address value : Int) : Program Unit := do
  let n ← get
  let memory ← replace n.memory (address % 4096) (value % 256)
  set { n with memory }

def register (x : Int) : Program Int := do
  let n ← get
  look n.v x

def setRegister (x value : Int) : Program Unit := do
  let n ← get
  let v ← replace n.v x value
  set { n with v }

def push (value : Int) : Program Unit := do
  let n ← get
  let stack ← replace n.stack n.sp (value % 65536)
  set { n with stack, sp := (n.sp + 1) % 16 }

def pop : Program Int := do
  modify fun n => { n with sp := (n.sp - 1) % 16 }
  let n ← get
  look n.stack n.sp

/-! ### Words -/

def regX (word : Int) : Int := word / 256 % 16

def regY (word : Int) : Int := word / 16 % 16

def fetch : Program Int := do
  let n ← get
  let high ← readByte n.pc
  let low ← readByte (n.pc + 1)
  return 256 * high + low

def refuse (word : Int) : Program Unit := do
  let n ← get
  throw (.fault (.unknownOpcode word n.pc))

def jump (target : Int) : Program Unit := modify fun n => { n with pc := target }

def advance : Program Unit := modify fun n => { n with pc := (n.pc + 2) % 65536 }

def skipIf (condition : Bool) : Program Unit :=
  modify fun n => { n with pc := (n.pc + if condition then 4 else 2) % 65536 }

/-! ### Families -/

def system (word : Int) : Program Unit := do
  if word % 256 = 0xE0 then
    modify fun n => { n with screen := n.screen.map (·.map fun _ => 0) }
  else if word % 256 = 0xEE then
    jump (← pop)
  else refuse word
  advance

def call (word : Int) : Program Unit := do
  let n ← get
  push n.pc
  jump (word % 4096)

def skipIfByte (word : Int) : Program Unit := do
  skipIf ((← register (regX word)) == word % 256)

def skipUnlessByte (word : Int) : Program Unit := do
  skipIf ((← register (regX word)) != word % 256)

def skipIfEqual (word : Int) : Program Unit := do
  if word % 16 ≠ 0 then refuse word
  skipIf ((← register (regX word)) == (← register (regY word)))

def setByte (word : Int) : Program Unit := do
  setRegister (regX word) (word % 256)
  advance

def addByte (word : Int) : Program Unit := do
  setRegister (regX word) (((← register (regX word)) + word % 256) % 256)
  advance

def setFlag (flag : Int) : Program Unit := setRegister 0xF flag

def arithmetic (word : Int) : Program Unit := do
  let x := regX word
  let op := word % 16
  let a ← register x
  let b ← register (regY word)
  if op = 0x0 then setRegister x b
  else if op = 0x1 then setRegister x (a.lor b)
  else if op = 0x2 then setRegister x (a.land b)
  else if op = 0x3 then setRegister x (a.xor b)
  else if op = 0x4 then
    setRegister x ((a + b) % 256)
    setFlag (if 255 < a + b then 1 else 0)
  else if op = 0x5 then
    setRegister x ((a - b) % 256)
    setFlag (if b ≤ a then 1 else 0)
  else if op = 0x6 then
    setRegister x (a / 2)
    setFlag (a % 2)
  else if op = 0x7 then
    setRegister x ((b - a) % 256)
    setFlag (if a ≤ b then 1 else 0)
  else if op = 0xE then
    setRegister x (2 * a % 256)
    setFlag (a / 128 % 2)
  else refuse word
  advance

def skipUnlessEqual (word : Int) : Program Unit := do
  skipIf ((← register (regX word)) != (← register (regY word)))

def setIndex (word : Int) : Program Unit := do
  modify fun n => { n with i := word % 4096 }
  advance

def jumpOffset (word : Int) : Program Unit := do
  jump ((word % 4096 + (← register 0)) % 65536)

def random (word : Int) : Program Unit := do
  let n ← get
  let (b, source) := n.source.next
  set { n with source }
  setRegister (regX word) ((b.toNat : Int).land (word % 256))
  advance

/-- Turns a cell over and tells whether it was lit. -/
def flip (row column : Int) : Program Bool := do
  let n ← get
  let line ← look n.screen row
  let cell ← look line column
  let line ← replace line column (cell.xor 1)
  let screen ← replace n.screen row line
  set { n with screen }
  return cell ≠ 0

def drawByte (bits row column : Int) : List Nat → Program Bool
  | [] => return false
  | k :: ks => do
      let hit ← if (bits >>> (7 - k)) % 2 = 1 then flip row ((column + k) % 64) else pure false
      return hit || (← drawByte bits row column ks)

def drawRows (column row : Int) : List Nat → Program Bool
  | [] => return false
  | k :: ks => do
      let n ← get
      let bits ← readByte (n.i + k)
      let hit ← drawByte bits ((row + k) % 32) column (List.range 8)
      return hit || (← drawRows column row ks)

def draw (word : Int) : Program Unit := do
  let column ← register (regX word)
  let row ← register (regY word)
  let hit ← drawRows column row (List.range (word % 16).toNat)
  setFlag (if hit then 1 else 0)
  advance

def key (word : Int) : Program Unit := do
  let x ← register (regX word)
  let n ← get
  let pressed ← look n.down (x % 16)
  if word % 256 = 0x9E then skipIf pressed
  else if word % 256 = 0xA1 then skipIf (!pressed)
  else refuse word

def readDelay (x : Int) : Program Unit := do
  let n ← get
  setRegister x n.delay
  advance

/-- Leaves the program counter where it is while no key has been released. -/
def awaitRelease (x : Int) : Program Unit := do
  let n ← get
  match n.released with
  | none => return
  | some key =>
      setRegister x key
      modify fun n => { n with released := none }
      advance

def setDelay (x : Int) : Program Unit := do
  let delay ← register x
  modify fun n => { n with delay }
  advance

def setSound (x : Int) : Program Unit := do
  let sound ← register x
  modify fun n => { n with sound }
  advance

def addIndex (x : Int) : Program Unit := do
  let a ← register x
  modify fun n => { n with i := (n.i + a) % 65536 }
  advance

def pointAtGlyph (x : Int) : Program Unit := do
  let a ← register x
  modify fun n => { n with i := a % 16 * 5 }
  advance

def storeDecimal (x : Int) : Program Unit := do
  let n ← get
  let value ← register x
  writeByte n.i (value / 100)
  writeByte (n.i + 1) (value / 10 % 10)
  writeByte (n.i + 2) (value % 10)
  advance

def storeOne (r : Nat) : Program Unit := do
  let n ← get
  writeByte (n.i + r) (← register r)

def store (x : Int) : Program Unit := do
  (List.range (x + 1).toNat).forM storeOne
  advance

def restoreOne (r : Nat) : Program Unit := do
  let n ← get
  setRegister r (← readByte (n.i + r))

def restore (x : Int) : Program Unit := do
  (List.range (x + 1).toNat).forM restoreOne
  advance

def misc (word : Int) : Program Unit :=
  let x := regX word
  let low := word % 256
  if low = 0x07 then readDelay x
  else if low = 0x0A then awaitRelease x
  else if low = 0x15 then setDelay x
  else if low = 0x18 then setSound x
  else if low = 0x1E then addIndex x
  else if low = 0x29 then pointAtGlyph x
  else if low = 0x33 then storeDecimal x
  else if low = 0x55 then store x
  else if low = 0x65 then restore x
  else refuse word

def execute (word : Int) : Program Unit :=
  match (word / 4096).toNat with
  | 0x0 => system word
  | 0x1 => jump (word % 4096)
  | 0x2 => call word
  | 0x3 => skipIfByte word
  | 0x4 => skipUnlessByte word
  | 0x5 => skipIfEqual word
  | 0x6 => setByte word
  | 0x7 => addByte word
  | 0x8 => arithmetic word
  | 0x9 => skipUnlessEqual word
  | 0xA => setIndex word
  | 0xB => jumpOffset word
  | 0xC => random word
  | 0xD => draw word
  | 0xE => key word
  | _ => misc word

/-! ### Time -/

def setTone (on : Bool) : Program Unit := do
  let n ← get
  match n.listener with
  | none => set { n with tone := on }
  | some respond =>
      set { n with tone := on, heard := n.heard ++ [on] }
      match respond n.heard.length with
      | none => return
      | some message => throw (.fault (.listener message))

def countDelay : Program Unit :=
  modify fun n => { n with delay := if 0 < n.delay then n.delay - 1 else n.delay }

def countSound : Program Unit := modify fun n => { n with sound := n.sound - 1 }

def tick : Program Unit := do
  countDelay
  let n ← get
  if 0 < n.sound then
    if !n.tone then setTone true
    countSound
  else if n.tone then setTone false

def countCycle : Program Unit :=
  modify fun n => { n with cycles := n.cycles + 1, sinceTick := n.sinceTick + 1 }

def step : Program Unit := do
  execute (← fetch)
  countCycle
  let n ← get
  if n.cyclesPerTick ≤ n.sinceTick then
    set { n with sinceTick := 0 }
    tick

/-! ### Commands -/

/-- Lays a list over another from a place on, which lengthens one that is too short. -/
def overlay (xs : List Int) (k : Nat) (ys : List Int) : List Int :=
  xs.take k ++ ys ++ xs.drop (k + ys.length)

def integers (bytes : List Byte) : List Int := bytes.map fun b => (b.toNat : Int)

def load (image : Image) : Program Int := do
  modify fun n => { n with memory := overlay n.memory 0 (integers Font.bytes) }
  match image.read 3584 with
  | .error fault => throw (.fault fault)
  | .ok (data, _) =>
      modify fun n => { n with memory := overlay n.memory 0x200 (integers data) }
      return data.length

def setKey (key : Int) (pressed : Bool) : Program Unit := do
  if ¬ (0 ≤ key ∧ key < 16) then throw (.fault (.keyOutOfRange key))
  let n ← get
  let down ← replace n.down key pressed
  set { n with down, released := if pressed then n.released else some key }

def perform : Command → Program (Option Int)
  | .step => do
      step
      return none
  | .tick => do
      tick
      return none
  | .key key pressed => do
      setKey key pressed
      return none
  | .load image => return some (← load image)
  | .write address value => do
      writeByte address value
      return none
  | .push value => do
      push value
      return none
  | .pop => return some (← pop)

def after (n : Numeric) : List Command → Numeric
  | [] => n
  | c :: cs =>
      match perform c n with
      | .ok _ n => n.after cs
      | .error _ n => n.after cs

def fresh (cyclesPerTick : Int) (source : Source) (listener : Option Listener) : Numeric where
  memory := overlay (List.replicate 4096 0) 0 (integers Font.bytes)
  v := List.replicate 16 0
  i := 0
  pc := 0x200
  stack := List.replicate 16 0
  sp := 0
  delay := 0
  sound := 0
  screen := List.replicate 32 (List.replicate 64 0)
  down := List.replicate 16 false
  released := none
  cycles := 0
  sinceTick := 0
  cyclesPerTick
  tone := false
  source
  listener
  heard := []

def cell (lit : Bool) : Int := if lit then 1 else 0

def cells (line : BitVec 64) : List Int := (List.range 64).map fun k => cell (line.getMsbD k)

structure WellFormed (n : Numeric) : Prop where
  memory_length : n.memory.length = 4096
  memory_range : ∀ b ∈ n.memory, 0 ≤ b ∧ b < 256
  v_length : n.v.length = 16
  v_range : ∀ b ∈ n.v, 0 ≤ b ∧ b < 256
  i_range : 0 ≤ n.i ∧ n.i < 65536
  pc_range : 0 ≤ n.pc ∧ n.pc < 65536
  stack_length : n.stack.length = 16
  stack_range : ∀ w ∈ n.stack, 0 ≤ w ∧ w < 65536
  sp_range : 0 ≤ n.sp ∧ n.sp < 16
  delay_range : 0 ≤ n.delay ∧ n.delay < 256
  sound_range : 0 ≤ n.sound ∧ n.sound < 256
  screen_length : n.screen.length = 32
  line_length : ∀ line ∈ n.screen, line.length = 64
  cell_range : ∀ line ∈ n.screen, ∀ cell ∈ line, cell = 0 ∨ cell = 1
  down_length : n.down.length = 16
  released_range : ∀ key, n.released = some key → 0 ≤ key ∧ key < 16
  sinceTick_range : 0 ≤ n.sinceTick ∧ n.sinceTick < n.cyclesPerTick

end Numeric

/-- A session read as whole numbers. -/
def Machine.numeric (m : Machine) (listener : Option Listener) (heard : List Bool) : Numeric where
  memory := Numeric.integers m.memory.toList
  v := Numeric.integers m.v.toList
  i := m.i.toNat
  pc := m.pc.toNat
  stack := m.stack.slots.toList.map fun w => (w.toNat : Int)
  sp := m.stack.top.toNat
  delay := m.delay.toNat
  sound := m.sound.toNat
  screen := m.screen.toList.map Numeric.cells
  down := m.keypad.down.toList
  released := m.keypad.released.map fun key => (key.toNat : Int)
  cycles := m.cycles
  sinceTick := m.sinceTick
  cyclesPerTick := m.cyclesPerTick
  tone := m.tone
  source := m.source
  listener
  heard

def Session.numeric (s : Session) : Numeric := s.machine.numeric s.listener s.heard

end ChipEight
