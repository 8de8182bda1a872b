import ChipEight.Proofs.Decoding
import ChipEight.Proofs.Numeric.Program
import ChipEight.Proofs.Runs

/-!
A machine read as whole numbers has every place that an instruction asks for, and what is read and
written there are the bytes and words of the machine.
-/

namespace ChipEight

namespace Numeric

/-! ### Numbers of words and bytes -/

theorem toNat_address (a : Int) : ((Field.address a).toNat : Int) = a % 4096 := by
  rw [Field.address, BitVec.toNat_ofInt]
  omega

theorem toNat_byte (a : Int) : ((Field.byte a).toNat : Int) = a % 256 := by
  rw [Field.byte, BitVec.toNat_ofInt]
  omega

theorem toNat_word (a : Int) : ((Field.word a).toNat : Int) = a % 65536 := by
  rw [Field.word, BitVec.toNat_ofInt]
  omega

theorem word_toNat (w : Word) : Field.word w.toNat = w := by
  rw [Field.word, BitVec.ofInt_natCast, BitVec.ofNat_toNat, BitVec.setWidth_eq]

theorem toNat_wide (a : Address) : ((a.setWidth 16).toNat : Int) = a.toNat := by
  rw [BitVec.toNat_setWidth_of_le (by decide)]

@[simp] theorem regX_word (w : Word) : regX w.toNat = w.x.toNat := by
  rw [regX, Word.toNat_x]
  omega

@[simp] theorem regY_word (w : Word) : regY w.toNat = w.y.toNat := by
  rw [regY, Word.toNat_y]
  omega

theorem mod_byte (w : Word) : (w.toNat : Int) % 256 = w.byte.toNat := by
  rw [Word.toNat_byte]
  omega

theorem toNat_eq_iff {width : Nat} (b k : BitVec width) (z : Int) (hz : (k.toNat : Int) = z) :
    (b.toNat : Int) = z ↔ b = k := by
  rw [← hz, ← BitVec.toNat_inj]
  omega

theorem mod_nibble (w : Word) : (w.toNat : Int) % 16 = w.nibble.toNat := by
  rw [Word.toNat_nibble]
  omega

theorem mod_address (w : Word) : (w.toNat : Int) % 4096 = w.address.toNat := by
  rw [Word.toNat_address]
  omega

theorem beq_toNat {width : Nat} (a b : BitVec width) : ((a.toNat : Int) == b.toNat) = (a == b) := by
  rw [Bool.eq_iff_iff]
  simp [← BitVec.toNat_inj]

theorem bne_toNat {width : Nat} (a b : BitVec width) : ((a.toNat : Int) != b.toNat) = (a != b) := by
  rw [bne, bne, beq_toNat]

theorem address_add (a : Word) (k : Nat) :
    Field.address (a.toNat + k) = a.address + BitVec.ofNat 12 k := by
  rw [← BitVec.toNat_inj, ← Int.natCast_inj, toNat_address, BitVec.toNat_add, Word.toNat_address,
    BitVec.toNat_ofNat]
  omega

theorem byte_toNat (b : Byte) : Field.byte b.toNat = b := by
  rw [Field.byte, BitVec.ofInt_natCast, BitVec.ofNat_toNat, BitVec.setWidth_eq]

theorem toNat_ofNibble {r : Nat} (hr : r < 16) : (r : Int) = (BitVec.ofNat 4 r).toNat := by
  rw [BitVec.toNat_ofNat]
  omega

theorem toNat_sum (a b : Byte) : (a.toNat + b.toNat : Int) % 256 = (a + b).toNat := by
  rw [BitVec.toNat_add]
  omega

theorem toNat_difference (a b : Byte) : (a.toNat - b.toNat : Int) % 256 = (a - b).toNat := by
  have := b.isLt
  rw [BitVec.toNat_sub]
  omega

theorem toNat_half (a : Byte) : (a.toNat : Int) / 2 = (a >>> 1).toNat := by
  rw [BitVec.toNat_ushiftRight, Nat.shiftRight_eq_div_pow]
  omega

theorem toNat_double (a : Byte) : 2 * (a.toNat : Int) % 256 = (a <<< 1).toNat := by
  rw [BitVec.toNat_shiftLeft, Nat.shiftLeft_eq]
  omega

theorem low_bit (a : Byte) : (a.toNat : Int) % 2 = if a.getLsbD 0 then 1 else 0 := by
  rw [BitVec.getLsbD, Nat.testBit_zero]
  simp only [decide_eq_true_eq]
  omega

theorem high_bit (a : Byte) : (a.toNat : Int) / 128 % 2 = if a.msb then 1 else 0 := by
  have := a.isLt
  rw [BitVec.msb_eq_decide]
  simp only [decide_eq_true_eq]
  omega

theorem carry_bit (a b : Byte) :
    (if 255 < (a.toNat + b.toNat : Int) then 1 else 0 : Int) =
      if decide (255 < a.toNat + b.toNat) then 1 else 0 := by
  simp only [decide_eq_true_eq]
  omega

theorem keep_bit (a b : Byte) :
    (if (b.toNat : Int) ≤ a.toNat then 1 else 0 : Int) = if decide (b ≤ a) then 1 else 0 := by
  simp only [decide_eq_true_eq, BitVec.le_def]
  omega

theorem toNat_hundreds (b : Byte) : (b.toNat : Int) / 100 = (b / 100).toNat := by
  rw [BitVec.toNat_udiv]
  rfl

theorem toNat_tens (b : Byte) : (b.toNat : Int) / 10 % 10 = (b / 10 % 10).toNat := by
  rw [BitVec.toNat_umod, BitVec.toNat_udiv]
  rfl

theorem toNat_ones (b : Byte) : (b.toNat : Int) % 10 = (b % 10).toNat := by
  rw [BitVec.toNat_umod]
  rfl

theorem count_registers (x : Nibble) : ((x.toNat : Int) + 1).toNat = x.toNat + 1 := by omega

/-! ### Cells -/

theorem cells_zero : cells 0 = List.replicate 64 0 := by decide

theorem length_cells (row : BitVec 64) : (cells row).length = 64 := by
  simp [cells]

theorem dark_cells (s : Screen) :
    (s.toList.map cells).map (·.map fun _ => (0 : Int)) = Screen.blank.toList.map cells := by
  have hb : Screen.blank.toList = s.toList.map fun _ => 0 := by
    rw [List.map_const', Bank.length_toList]
    exact Bank.toList_fill 0
  rw [hb, List.map_map, List.map_map]
  refine List.map_congr_left ?_
  intro row _
  rw [Function.comp_apply, Function.comp_apply, List.map_const', length_cells, cells_zero]

/-! ### Lists -/

section Lists

variable {α β : Type}

theorem run_look_map {width : Nat} (b : Bank width β) (f : β → α) (i : BitVec width)
    (n : Numeric) : (look (b.toList.map f) i.toNat).run n = .ok (f (b.get i)) n := by
  simp [look]

theorem run_look {width : Nat} (b : Bank width β) (i : BitVec width) (n : Numeric) :
    (look b.toList i.toNat).run n = .ok (b.get i) n := by
  simp [look]

theorem run_replace_map {width : Nat} (b : Bank width β) (f : β → α) (i : BitVec width) (a : β)
    (n : Numeric) :
    (replace (b.toList.map f) i.toNat (f a)).run n = .ok ((b.set i a).toList.map f) n := by
  have hi := Bank.toNat_lt_size i
  simp [replace, Bank.toList_set, List.map_set, hi]

theorem run_replace {width : Nat} (b : Bank width β) (i : BitVec width) (a : β) (n : Numeric) :
    (replace b.toList i.toNat a).run n = .ok (b.set i a).toList n := by
  have hi := Bank.toNat_lt_size i
  simp [replace, Bank.toList_set, hi]

theorem run_forM_range {body : Nat → Program Unit} (state : Nat → Numeric) {n : Nat}
    (h : ∀ r < n, (body r).run (state r) = .ok () (state (r + 1))) :
    ((List.range n).forM body).run (state 0) = .ok () (state n) := by
  induction n with
  | zero => rfl
  | succ n ih =>
      have ih := ih fun r hr => h r (Nat.lt_succ_of_lt hr)
      have hn := h n (Nat.lt_succ_self n)
      rw [List.forM_eq_forM] at ih ⊢
      simp only [List.range_succ, List.forM_append, List.forM_cons, List.forM_nil,
        EStateM.run_bind, EStateM.run_pure, ih, hn]

end Lists

section Machine

variable (m : Machine) (l : Option Listener) (h : List Bool)

/-! ### Views -/

theorem numeric_memory :
    (m.numeric l h).memory = m.memory.toList.map fun b => (b.toNat : Int) := rfl

theorem numeric_v : (m.numeric l h).v = m.v.toList.map fun b => (b.toNat : Int) := rfl

theorem numeric_stack :
    (m.numeric l h).stack = m.stack.slots.toList.map fun w => (w.toNat : Int) := rfl

theorem numeric_sp : (m.numeric l h).sp = m.stack.top.toNat := rfl

theorem numeric_pc : (m.numeric l h).pc = m.pc.toNat := rfl

theorem numeric_i : (m.numeric l h).i = m.i.toNat := rfl

theorem numeric_source : (m.numeric l h).source = m.source := rfl

theorem with_delay (delay : Byte) :
    { m.numeric l h with delay := delay.toNat } = { m with delay }.numeric l h := rfl

theorem with_sound (sound : Byte) :
    { m.numeric l h with sound := sound.toNat } = { m with sound }.numeric l h := rfl

theorem with_i (i : Word) : { m.numeric l h with i := i.toNat } = { m with i }.numeric l h := rfl

theorem with_source (source : Source) :
    { m.numeric l h with source } = { m with source }.numeric l h := rfl

theorem numeric_screen : (m.numeric l h).screen = m.screen.toList.map cells := rfl

/-! ### Places -/

/-- Reading asks for nothing but the memory. -/
theorem run_readByte_of_memory {n : Numeric} (hn : n.memory = integers m.memory.toList) (a : Int) :
    (readByte a).run n = .ok ((m.read a).toNat : Int) n := by
  simp only [readByte, EStateM.run_bind, EStateM.run_get, hn, ← toNat_address]
  exact run_look_map m.memory _ _ _

@[simp] theorem run_readByte (a : Int) :
    (readByte a).run (m.numeric l h) = .ok ((m.read a).toNat : Int) (m.numeric l h) :=
  run_readByte_of_memory m rfl a

@[simp] theorem run_writeByte (a value : Int) :
    (writeByte a value).run (m.numeric l h) = .ok () ((m.write a value).numeric l h) := by
  have hr := run_replace_map m.memory (fun b => (b.toNat : Int)) (Field.address a)
    (Field.byte value) (m.numeric l h)
  rw [toNat_address, toNat_byte] at hr
  simp only [writeByte, EStateM.run_bind, EStateM.run_get, numeric_memory, hr]
  rfl

@[simp] theorem run_register (x : Nibble) :
    (register x.toNat).run (m.numeric l h) = .ok ((m.v.get x).toNat : Int) (m.numeric l h) := by
  simp only [register, EStateM.run_bind, EStateM.run_get, numeric_v]
  exact run_look_map m.v _ _ _

@[simp] theorem run_setRegister (x : Nibble) (b : Byte) :
    (setRegister x.toNat b.toNat).run (m.numeric l h) =
      .ok () ((m.setRegister x b).numeric l h) := by
  have hr := run_replace_map m.v (fun b => (b.toNat : Int)) x b (m.numeric l h)
  simp only [setRegister, EStateM.run_bind, EStateM.run_get, numeric_v, hr]
  rfl

@[simp] theorem run_push (value : Int) :
    (push value).run (m.numeric l h) = .ok () ((m.push value).numeric l h) := by
  have hr := run_replace_map m.stack.slots (fun w => (w.toNat : Int)) m.stack.top
    (Field.word value) (m.numeric l h)
  have ht : (m.stack.top.toNat + 1 : Int) % 16 = (m.stack.top + 1).toNat := by
    simp [BitVec.toNat_add]
  rw [toNat_word] at hr
  simp only [push, EStateM.run_bind, EStateM.run_get, numeric_stack, numeric_sp, hr, ht]
  rfl

@[simp] theorem run_pop :
    pop.run (m.numeric l h) = .ok (m.pop.1.toNat : Int) (m.pop.2.numeric l h) := by
  have ht : (m.stack.top.toNat - 1 : Int) % 16 = (m.stack.top - 1).toNat := by
    have := m.stack.top.isLt
    simp [BitVec.toNat_sub]
    omega
  simp only [pop, EStateM.run_bind, EStateM.run_modify, EStateM.run_get, numeric_stack, numeric_sp,
    ht]
  exact run_look_map m.stack.slots _ _ _

@[simp] theorem run_jump (w : Word) :
    (jump w.toNat).run (m.numeric l h) = .ok () ({ m with pc := w }.numeric l h) := rfl

@[simp] theorem run_advance : advance.run (m.numeric l h) = .ok () (m.advance.numeric l h) := by
  have hp : (m.pc.toNat + 2 : Int) % 65536 = (m.pc + 2).toNat := by simp [BitVec.toNat_add]
  simp only [advance, EStateM.run_modify, numeric_pc, hp]
  rfl

@[simp] theorem run_skipIf (c : Bool) :
    (skipIf c).run (m.numeric l h) = .ok () ((m.skipIf c).numeric l h) := by
  have hp : (m.pc.toNat + if c then 4 else 2 : Int) % 65536 =
      (m.pc + if c then 4 else 2).toNat := by
    cases c <;> simp [BitVec.toNat_add]
  simp only [skipIf, EStateM.run_modify, numeric_pc, hp]
  rfl

@[simp] theorem run_refuse (word : Int) :
    (refuse word).run (m.numeric l h) =
      .error (.fault (.unknownOpcode word m.pc.toNat)) (m.numeric l h) := rfl

theorem run_fetch_of_memory {n : Numeric} (hn : n.memory = integers m.memory.toList) :
    fetch.run n = .ok (256 * (m.read n.pc).toNat + (m.read (n.pc + 1)).toNat : Int) n := by
  simp only [fetch, EStateM.run_bind, EStateM.run_get, EStateM.run_pure,
    run_readByte_of_memory m hn]

theorem run_fetch : fetch.run (m.numeric l h) = .ok (m.fetch.toNat : Int) (m.numeric l h) := by
  rw [run_fetch_of_memory m rfl, Machine.toNat_fetch_eq_add, Int.natCast_add, Int.natCast_mul]
  rfl

/-- What carrying out a word comes to in whole numbers. -/
def outcome (w : Word) : Option Instruction → EStateM.Result Trouble Numeric Unit
  | some i => .ok () ((m.execute i).numeric l h)
  | none => .error (.fault (.unknownOpcode w.toNat m.pc.toNat)) (m.numeric l h)

end Machine

end Numeric

end ChipEight
