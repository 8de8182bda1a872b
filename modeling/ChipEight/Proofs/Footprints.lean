import ChipEight.Proofs.KeyReleases

/-!
What an instruction leaves alone. The machine comes apart into `Part`s, and
`Instruction.footprint` lists those that an instruction may write. A step changes no other part,
timers that tick aside, and goes on at `Instruction.next`.
-/

namespace ChipEight

/-- A piece of the machine that is written or kept as a whole. The program counter and the counts of
cycles, which every step moves, are none. -/
inductive Part where
  | register (r : Nibble)
  | index
  | cell (a : Address)
  | slot (n : Nibble)
  | top
  | screen
  | key (k : Nibble)
  | release
  | delay
  | sound
  | tone
  | source
  | period
  deriving DecidableEq

namespace Part

def Same (m n : Machine) : Part → Prop
  | register r => n.v.get r = m.v.get r
  | index => n.i = m.i
  | cell a => n.memory.get a = m.memory.get a
  | slot k => n.stack.slots.get k = m.stack.slots.get k
  | top => n.stack.top = m.stack.top
  | screen => n.screen = m.screen
  | key k => n.keypad.down.get k = m.keypad.down.get k
  | release => n.keypad.released = m.keypad.released
  | delay => n.delay = m.delay
  | sound => n.sound = m.sound
  | tone => n.tone = m.tone
  | source => n.source = m.source
  | period => n.cyclesPerTick = m.cyclesPerTick

theorem same_trans {l m n : Machine} {p : Part} (h : p.Same l m) (k : p.Same m n) :
    p.Same l n := by
  cases p <;> exact Eq.trans k h

def isTimer : Part → Bool
  | delay | sound | tone => true
  | _ => false

/-- The parts are all of the machine but what every step moves. -/
theorem eq_of_same {m n : Machine} (h : ∀ p : Part, p.Same m n) :
    n = { m with pc := n.pc, cycles := n.cycles, sinceTick := n.sinceTick } := by
  have hv : n.v = m.v := Bank.ext fun r => h (.register r)
  have hmemory : n.memory = m.memory := Bank.ext fun a => h (.cell a)
  have hslots : n.stack.slots = m.stack.slots := Bank.ext fun k => h (.slot k)
  have hdown : n.keypad.down = m.keypad.down := Bank.ext fun k => h (.key k)
  have hstack : n.stack = m.stack := by
    rw [show n.stack = ⟨n.stack.slots, n.stack.top⟩ from rfl, hslots, h .top]
  have hkeypad : n.keypad = m.keypad := by
    rw [show n.keypad = ⟨n.keypad.down, n.keypad.released⟩ from rfl, hdown, h .release]
  have hindex : n.i = m.i := h .index
  have hdelay : n.delay = m.delay := h .delay
  have hsound : n.sound = m.sound := h .sound
  have hscreen : n.screen = m.screen := h .screen
  have hperiod : n.cyclesPerTick = m.cyclesPerTick := h .period
  have htone : n.tone = m.tone := h .tone
  have hsource : n.source = m.source := h .source
  rw [← hv, ← hmemory, ← hstack, ← hkeypad, ← hindex, ← hdelay, ← hsound, ← hscreen, ← hperiod,
    ← htone, ← hsource]

end Part

def Arithmetic.setsFlag : Arithmetic → Bool
  | .copy | .or | .and | .xor => false
  | .add | .subtract | .shiftRight | .subtractFrom | .shiftLeft => true

namespace Machine

def cellsFrom (m : Machine) (n : Nat) : List Part :=
  (List.range n).map fun r => .cell (BitVec.ofNat 12 (m.i.toNat + r))

theorem not_mem_cellsFrom {p : Part} (h : ∀ a, p ≠ .cell a) (m : Machine) (n : Nat) :
    p ∉ m.cellsFrom n := by
  intro hm
  obtain ⟨r, -, rfl⟩ := List.mem_map.mp hm
  exact h _ rfl

end Machine

namespace Instruction

/-- The parts that an instruction may write. A wait writes nothing before it completes. -/
def footprint (m : Machine) : Instruction → List Part
  | .clear => [.screen]
  | .ret => [.top]
  | .call _ => [.slot m.stack.top, .top]
  | .setByte x _ | .addByte x _ | .readDelay x => [.register x]
  | .arithmetic op x _ => if op.setsFlag then [.register x, .register 0xF] else [.register x]
  | .setIndex _ | .addIndex _ | .pointAtGlyph _ => [.index]
  | .random x _ => [.register x, .source]
  | .draw _ _ _ => [.screen, .register 0xF]
  | .awaitRelease x => if m.keypad.released.isSome then [.register x, .release] else []
  | .setDelay _ => [.delay]
  | .setSound _ => [.sound]
  | .storeDecimal _ => m.cellsFrom 3
  | .store x => m.cellsFrom (x.toNat + 1)
  | .restore x => (List.range (x.toNat + 1)).map fun r => .register (BitVec.ofNat 4 r)
  | .jump _ | .jumpOffset _ | .skipIfByte _ _ | .skipUnlessByte _ _ | .skipIfEqual _ _
  | .skipUnlessEqual _ _ | .skipIfDown _ | .skipIfUp _ => []

def skips (m : Machine) : Instruction → Bool
  | .skipIfByte x k => m.v.get x == k
  | .skipUnlessByte x k => m.v.get x != k
  | .skipIfEqual x y => m.v.get x == m.v.get y
  | .skipUnlessEqual x y => m.v.get x != m.v.get y
  | .skipIfDown x => m.keypad.down.get (BitVec.ofNat 4 (m.v.get x).toNat)
  | .skipIfUp x => !m.keypad.down.get (BitVec.ofNat 4 (m.v.get x).toNat)
  | _ => false

def next (m : Machine) : Instruction → Nat
  | .jump target | .call target => target.toNat
  | .ret => ((m.stack.slots.get (m.stack.top - 1)).toNat + 2) % 65536
  | .jumpOffset target => (target.toNat + (m.v.get 0).toNat) % 65536
  | .awaitRelease _ =>
      if m.keypad.released = none then m.pc.toNat else (m.pc.toNat + 2) % 65536
  | i => (m.pc.toNat + if i.skips m then 4 else 2) % 65536

end Instruction

theorem Bank.get_write_outside {width : Nat} {α : Type} (b : Bank width α) {i j : BitVec width}
    {as : List α} (hsize : as.length ≤ size width) (h : as.length ≤ (j - i).toNat) :
    (b.write i as).get j = b.get j := by
  rw [get_write b i j as hsize, List.getElem?_eq_none h, Option.getD_none]

theorem Bank.get_write_inside {width : Nat} {α : Type} (b : Bank width α) (start : Nat)
    {as : List α} (hsize : as.length ≤ size width) {k : Nat} (h : k < as.length) :
    (b.write (BitVec.ofNat width start) as).get (BitVec.ofNat width (start + k)) = as[k] := by
  have hk : k < size width := Nat.lt_of_lt_of_le h hsize
  rw [size_eq] at hk
  have hplace : (BitVec.ofNat width (start + k) - BitVec.ofNat width start).toNat = k := by
    rw [BitVec.ofNat_add, BitVec.add_comm, BitVec.add_sub_cancel, BitVec.toNat_ofNat]
    exact Nat.mod_eq_of_lt hk
  rw [get_write _ _ _ _ hsize, hplace, List.getElem?_eq_getElem h, Option.getD_some]

namespace Machine

variable (m : Machine) {p : Part}

theorem same_setRegister {x : Nibble} (h : p ≠ .register x) (b : Byte) (pc : Word) :
    p.Same m { m.setRegister x b with pc } := by
  cases p with
  | register r =>
      have hr : x ≠ r := fun he => h (congrArg Part.register he.symm)
      exact Bank.get_set_ne m.v b hr
  | _ => rfl

theorem same_writeCells {bytes : List Byte} (hsize : bytes.length ≤ 4096)
    (h : p ∉ m.cellsFrom bytes.length) :
    p.Same m { m with memory := m.memory.write m.address bytes, pc := m.pc + 2 } := by
  cases p with
  | cell a =>
      refine Bank.get_write_outside m.memory hsize ?_
      refine Nat.le_of_not_lt ?_
      intro hlt
      refine h (List.mem_map.mpr ⟨_, List.mem_range.mpr hlt, congrArg Part.cell ?_⟩)
      apply BitVec.eq_of_toNat_eq
      have ha := a.isLt
      rw [BitVec.toNat_ofNat, BitVec.toNat_sub, address, Word.toNat_address]
      omega
  | _ => rfl

theorem same_restore {x : Nibble}
    (h : p ∉ (List.range (x.toNat + 1)).map fun r => Part.register (BitVec.ofNat 4 r)) :
    p.Same m (m.execute (.restore x)) := by
  cases p with
  | register r =>
      have hx := x.isLt
      refine Bank.get_write_outside m.v ?_ ?_
      · rw [Bank.length_slice]
        exact hx
      · rw [Bank.length_slice, show r - 0 = r from BitVec.sub_zero r]
        refine Nat.le_of_not_lt ?_
        intro hlt
        refine h (List.mem_map.mpr ⟨_, List.mem_range.mpr hlt, ?_⟩)
        rw [BitVec.ofNat_toNat, BitVec.setWidth_eq]
  | _ => rfl

theorem same_arithmetic {op : Arithmetic} {x : Nibble} (y : Nibble)
    (h : p ∉ (Instruction.arithmetic op x y).footprint m) :
    p.Same m (m.execute (.arithmetic op x y)) := by
  have hx : p ≠ .register x := by
    rintro rfl
    cases op <;> exact h List.mem_cons_self
  cases op with
  | copy | or | and | xor => exact m.same_setRegister hx _ _
  | add | subtract | shiftRight | subtractFrom | shiftLeft =>
      have hflag : p ≠ .register 0xF := by
        rintro rfl
        exact h (List.mem_cons_of_mem _ List.mem_cons_self)
      exact Part.same_trans (m.same_setRegister hx _ m.pc)
        ((m.setRegister x _).same_setRegister hflag _ _)

theorem execute_same {i : Instruction} (h : p ∉ i.footprint m) : p.Same m (m.execute i) := by
  cases i with
  | jump | jumpOffset | skipIfByte | skipUnlessByte | skipIfEqual | skipUnlessEqual | skipIfDown
  | skipIfUp =>
      cases p <;> rfl
  | clear =>
      cases p with
      | screen => exact absurd List.mem_cons_self h
      | _ => rfl
  | ret =>
      cases p with
      | top => exact absurd List.mem_cons_self h
      | _ => rfl
  | call target =>
      cases p with
      | slot k =>
          refine Bank.get_set_ne _ _ ?_
          rintro rfl
          exact h List.mem_cons_self
      | top => exact absurd (List.mem_cons_of_mem _ List.mem_cons_self) h
      | _ => rfl
  | setIndex | addIndex | pointAtGlyph =>
      cases p with
      | index => exact absurd List.mem_cons_self h
      | _ => rfl
  | setDelay =>
      cases p with
      | delay => exact absurd List.mem_cons_self h
      | _ => rfl
  | setSound =>
      cases p with
      | sound => exact absurd List.mem_cons_self h
      | _ => rfl
  | setByte x | addByte x | readDelay x =>
      exact m.same_setRegister (List.ne_of_not_mem_cons h) _ _
  | arithmetic op x y => exact m.same_arithmetic y h
  | random x k =>
      have hrest := List.not_mem_of_not_mem_cons h
      cases p with
      | source => exact absurd List.mem_cons_self hrest
      | register r =>
          exact m.same_setRegister (List.ne_of_not_mem_cons h) _ m.pc
      | _ => rfl
  | draw x y rows =>
      have hrest := List.not_mem_of_not_mem_cons h
      cases p with
      | screen => exact absurd List.mem_cons_self h
      | register r =>
          exact m.same_setRegister (List.ne_of_not_mem_cons hrest) _ m.pc
      | _ => rfl
  | awaitRelease x =>
      simp only [execute, awaitRelease]
      cases hr : m.keypad.released with
      | none => cases p <;> rfl
      | some key =>
          have h : p ∉ [Part.register x, Part.release] := by
            rwa [Instruction.footprint, hr] at h
          have hrest := List.not_mem_of_not_mem_cons h
          cases p with
          | release => exact absurd List.mem_cons_self hrest
          | register r =>
              exact m.same_setRegister (List.ne_of_not_mem_cons h) _ m.pc
          | _ => rfl
  | storeDecimal x => exact m.same_writeCells (Nat.le_of_ble_eq_true rfl) h
  | store x =>
      have hlength : (m.registersUpTo x).length = x.toNat + 1 := Bank.length_slice _ _ _
      have hx := x.isLt
      rw [Instruction.footprint, ← hlength] at h
      exact m.same_writeCells (by omega) h
  | restore x => exact m.same_restore h

theorem toNat_pc_add_two : (m.pc + 2).toNat = (m.pc.toNat + 2) % 65536 := BitVec.toNat_add _ _

theorem toNat_skipIf (condition : Bool) :
    (m.skipIf condition).pc.toNat = (m.pc.toNat + if condition then 4 else 2) % 65536 := by
  cases condition <;> exact BitVec.toNat_add _ _

theorem keyDown_eq (x : Nibble) :
    m.keyDown x = m.keypad.down.get (BitVec.ofNat 4 (m.v.get x).toNat) := by
  rw [keyDown, BitVec.ofNat_toNat]

theorem toNat_setWidth_address (target : Address) :
    (target.setWidth 16 : Word).toNat = target.toNat := by
  have ht := target.isLt
  rw [BitVec.toNat_setWidth]
  omega

theorem toNat_execute_pc (i : Instruction) : (m.execute i).pc.toNat = i.next m := by
  cases i with
  | jump target | call target => exact toNat_setWidth_address target
  | ret => exact BitVec.toNat_add _ _
  | jumpOffset target =>
      change (target.setWidth 16 + (m.v.get 0).setWidth 16 : Word).toNat = _
      have hv := (m.v.get 0).isLt
      rw [BitVec.toNat_add, toNat_setWidth_address, BitVec.toNat_setWidth,
        Nat.mod_eq_of_lt (show (m.v.get 0).toNat < 2 ^ 16 by omega)]
      rfl
  | awaitRelease x =>
      change (m.awaitRelease x).pc.toNat =
        if m.keypad.released = none then m.pc.toNat else (m.pc.toNat + 2) % 65536
      rw [awaitRelease]
      cases m.keypad.released with
      | none => rfl
      | some key => exact m.toNat_pc_add_two
  | skipIfDown x =>
      change (m.skipIf (m.keyDown x)).pc.toNat = _
      rw [toNat_skipIf, keyDown_eq]
      rfl
  | skipIfUp x =>
      change (m.skipIf (!m.keyDown x)).pc.toNat = _
      rw [toNat_skipIf, keyDown_eq]
      rfl
  | skipIfByte | skipUnlessByte | skipIfEqual | skipUnlessEqual => exact m.toNat_skipIf _
  | arithmetic op x y => cases op <;> exact m.toNat_pc_add_two
  | _ => exact m.toNat_pc_add_two

theorem same_retime (ht : p.isTimer = false) (timing : Timing) : p.Same m (m.retime timing) := by
  cases p with
  | delay | sound | tone => cases ht
  | _ => rfl

theorem same_counted : p.Same m m.counted := by
  cases p <;> rfl

end Machine

namespace Session

theorem stepTick?_eq_none {s : Session} {i : Instruction} (hi : s.instruction? .step = some i)
    (h : s.machine.sinceTick + 1 < s.machine.cyclesPerTick) : s.stepTick? .step = none := by
  have hword : Instruction.ofWord? s.machine.fetch = some i := hi
  have hclock := s.machine.execute_clock i
  have hsince : (s.machine.execute i).sinceTick = s.machine.sinceTick :=
    congrArg Machine.Clock.sinceTick hclock
  have hperiod : (s.machine.execute i).cyclesPerTick = s.machine.cyclesPerTick :=
    congrArg Machine.Clock.cyclesPerTick hclock
  rw [stepTick?, tickStart?, hword, Option.bind_some, Machine.tickStart?, hsince, hperiod,
    if_neg (Nat.not_le_of_lt h)]

theorem step_same {s : Session} {i : Instruction} (hi : s.instruction? .step = some i) {p : Part}
    (hp : p ∉ i.footprint s.machine)
    (ht : p.isTimer = true → s.machine.sinceTick + 1 < s.machine.cyclesPerTick) :
    p.Same s.machine (s.perform .step).2.machine := by
  have hexecuted := s.machine.execute_same hp
  cases htimer : p.isTimer with
  | false =>
      rw [perform_retime hi]
      exact Part.same_trans hexecuted (Machine.same_retime _ htimer _)
  | true =>
      have hperform := perform_of_instruction? hi
      rw [stepTick?_eq_none hi (ht htimer)] at hperform
      rw [hperform]
      exact Part.same_trans hexecuted (Machine.same_counted _)

theorem writes_only_footprint {s : Session}
    (h : ∀ opcode pc, (s.perform .step).1 ≠ .error (.unknownOpcode opcode pc)) :
    let m := s.machine
    let t := (s.perform .step).2.machine
    ∃ i, Instruction.Written m.fetch i ∧
      (∀ p ∉ i.footprint m, (p.isTimer = true → m.sinceTick + 1 < m.cyclesPerTick) →
        p.Same m t) ∧
      (t.keypad.released = m.keypad.released ∨ t.keypad.released = none) ∧
      t.pc.toNat = i.next m := by
  intro m t
  cases hi : Instruction.ofWord? m.fetch with
  | none =>
      refine absurd ?_ (h m.fetch.toNat m.pc.toNat)
      rw [perform, step_refused hi]
      rfl
  | some i =>
      refine ⟨i, Instruction.written_of_ofWord? hi, fun p => step_same hi, ?_, ?_⟩
      · have hreleased : t.keypad.released = (m.execute i).keypad.released :=
          step_timeless (f := fun n => n.keypad.released) (fun _ _ _ _ _ _ => rfl) hi
        rw [hreleased, Machine.execute_keypad]
        cases i with
        | awaitRelease x => exact .inr rfl
        | _ => exact .inl rfl
      · have hpc : t.pc = (m.execute i).pc :=
          step_timeless (f := Machine.pc) (fun _ _ _ _ _ _ => rfl) hi
        rw [hpc, Machine.toNat_execute_pc]

/-- `F155` in the last two cells of the memory, over the second of which it stores. -/
def storeOverEnd : Session :=
  start
    { Machine.fresh 2 Source.silent with
      memory := (Bank.fill 0).write 0xFFE [0xF1, 0x55]
      v := ((Bank.fill 0).set 0 0xAA).set 1 0xBB
      i := 0xFFFF
      sound := 5
      pc := 0xFFFE } none

theorem writes_only_footprint_over_end :
    ∃ t, t = (storeOverEnd.perform .step).2.machine ∧
      t.v = storeOverEnd.machine.v ∧ t.i = 0xFFFF ∧ t.sound = 5 ∧
      (∀ a : Address, 0 < a.toNat → a.toNat < 4095 →
        t.memory.get a = storeOverEnd.machine.memory.get a) ∧
      t.memory.get 0xFFF = 0xAA ∧ t.memory.get 0 = 0xBB ∧ t.pc.toNat = 0 := by
  have hread : storeOverEnd.instruction? .step = some (.store 1) := by decide +kernel
  obtain ⟨i, hi, hsame, -, hpc⟩ := writes_only_footprint (s := storeOverEnd) (by
    intro opcode pc h
    obtain ⟨message, hm⟩ := fault_of_executed hread h
    cases hm)
  obtain rfl : i = .store 1 :=
    Option.some.inj (((Instruction.ofWord?_eq_some_iff _ i).mpr hi).symm.trans hread)
  have hbytes : storeOverEnd.machine.registersUpTo 1 = [0xAA, 0xBB] := by decide +kernel
  have hmemory : (storeOverEnd.perform .step).2.machine.memory =
      storeOverEnd.machine.memory.write 0xFFF [0xAA, 0xBB] := by
    rw [perform_retime hread, ← hbytes]
    rfl
  refine ⟨_, rfl, Bank.ext fun r => ?_, ?_, ?_, ?_, ?_, ?_, hpc⟩
  · exact hsame (.register r) (Machine.not_mem_cellsFrom (by simp) _ _) nofun
  · exact hsame .index (Machine.not_mem_cellsFrom (by simp) _ _) nofun
  · exact hsame .sound (Machine.not_mem_cellsFrom (by simp) _ _) fun _ => Nat.lt_add_one 1
  · intro a hfirst hlast
    refine hsame (.cell a) ?_ nofun
    intro hmem
    obtain ⟨r, hr, ha⟩ := List.mem_map.mp hmem
    have hr := List.mem_range.mp hr
    have ha : (0xFFFF + r) % 4096 = a.toNat := by
      rw [← Part.cell.inj ha, BitVec.toNat_ofNat]
      rfl
    have hx : (1 : Nibble).toNat = 1 := rfl
    omega
  · rw [hmemory, Bank.get_write _ _ _ _ (by decide)]
    rfl
  · rw [hmemory, Bank.get_write _ _ _ _ (by decide)]
    rfl

end Session

end ChipEight
