import ChipEight.Proofs.Numeric.Places

/-!
Every family but the drawing one, and every instruction of the mixed families, does in whole numbers
what it does to the machine.
-/

namespace ChipEight

namespace Numeric

variable (m : Machine) (l : Option Listener) (h : List Bool)

theorem run_system (w : Word) :
    (system w.toNat).run (m.numeric l h) = outcome m l h w (Instruction.system? w.byte) := by
  simp only [system, mod_byte, toNat_eq_iff w.byte 0xE0 0xE0 rfl,
    toNat_eq_iff w.byte 0xEE 0xEE rfl]
  by_cases hc : w.byte = 0xE0
  · rw [if_pos hc, hc]
    simp only [EStateM.run_bind, EStateM.run_modify, numeric_screen, dark_cells]
    exact run_advance { m with screen := Screen.blank } l h
  · rw [if_neg hc]
    by_cases hr : w.byte = 0xEE
    · rw [if_pos hr, hr]
      simp only [EStateM.run_bind, run_pop, run_jump, run_advance]
      rfl
    · have hn : Instruction.system? w.byte = none := by
        unfold Instruction.system?
        split <;> simp_all
      rw [if_neg hr, hn]
      simp only [EStateM.run_bind, run_refuse]
      rfl

theorem run_call (w : Word) :
    (call w.toNat).run (m.numeric l h) = outcome m l h w (some (.call w.address)) := by
  simp only [call, EStateM.run_bind, EStateM.run_get, numeric_pc, run_push, Machine.push,
    word_toNat, mod_address, ← toNat_wide, run_jump]
  rfl

theorem run_skipIfByte (w : Word) :
    (skipIfByte w.toNat).run (m.numeric l h) =
      outcome m l h w (some (.skipIfByte w.x w.byte)) := by
  simp only [skipIfByte, EStateM.run_bind, regX_word, mod_byte, run_register, beq_toNat,
    run_skipIf]
  rfl

theorem run_skipUnlessByte (w : Word) :
    (skipUnlessByte w.toNat).run (m.numeric l h) =
      outcome m l h w (some (.skipUnlessByte w.x w.byte)) := by
  simp only [skipUnlessByte, EStateM.run_bind, regX_word, mod_byte, run_register, bne_toNat,
    run_skipIf]
  rfl

theorem run_skipIfEqual (w : Word) :
    (skipIfEqual w.toNat).run (m.numeric l h) =
      outcome m l h w (if w.nibble = 0 then some (.skipIfEqual w.x w.y) else none) := by
  simp only [skipIfEqual, mod_nibble, ne_eq, toNat_eq_iff w.nibble 0 0 rfl]
  by_cases hn : w.nibble = 0
  · rw [if_neg (not_not_intro hn), if_pos hn]
    simp only [EStateM.run_bind, regX_word, regY_word, run_register, beq_toNat, run_skipIf]
    rfl
  · rw [if_pos hn, if_neg hn]
    simp only [EStateM.run_bind, run_refuse]
    rfl

theorem run_setByte (w : Word) :
    (setByte w.toNat).run (m.numeric l h) = outcome m l h w (some (.setByte w.x w.byte)) := by
  simp only [setByte, EStateM.run_bind, regX_word, mod_byte, run_setRegister, run_advance]
  rfl

theorem run_result (x : Nibble) {z : Int} {r : Byte} (hz : z = r.toNat) :
    (do setRegister x.toNat z; advance).run (m.numeric l h) =
      .ok () ((m.setRegister x r).advance.numeric l h) := by
  simp only [hz, EStateM.run_bind, run_setRegister, run_advance]

theorem run_addByte (w : Word) :
    (addByte w.toNat).run (m.numeric l h) = outcome m l h w (some (.addByte w.x w.byte)) := by
  simp only [addByte, EStateM.run_bind, regX_word, mod_byte, run_register]
  exact run_result m l h w.x (toNat_sum _ _)

theorem run_skipUnlessEqual (w : Word) :
    (skipUnlessEqual w.toNat).run (m.numeric l h) =
      outcome m l h w (some (.skipUnlessEqual w.x w.y)) := by
  simp only [skipUnlessEqual, EStateM.run_bind, regX_word, regY_word, run_register, bne_toNat,
    run_skipIf]
  rfl

theorem run_jumpWord (w : Word) :
    (jump ((w.toNat : Int) % 4096)).run (m.numeric l h) =
      outcome m l h w (some (.jump w.address)) := by
  rw [mod_address, ← toNat_wide, run_jump]
  rfl

theorem run_setIndex (w : Word) :
    (setIndex w.toNat).run (m.numeric l h) = outcome m l h w (some (.setIndex w.address)) := by
  simp only [setIndex, EStateM.run_bind, EStateM.run_modify, mod_address, ← toNat_wide]
  exact run_advance { m with i := w.address.setWidth 16 } l h

theorem run_jumpOffset (w : Word) :
    (jumpOffset w.toNat).run (m.numeric l h) =
      outcome m l h w (some (.jumpOffset w.address)) := by
  have hr : (register 0).run (m.numeric l h) = .ok ((m.v.get 0).toNat : Int) (m.numeric l h) :=
    run_register m l h 0
  have ht : (w.address.toNat + (m.v.get 0).toNat : Int) % 65536 =
      (w.address.setWidth 16 + (m.v.get 0).setWidth 16 : Word).toNat := by
    simp [BitVec.toNat_add]
  simp only [jumpOffset, EStateM.run_bind, mod_address, hr, ht, run_jump]
  rfl

theorem run_random (w : Word) :
    (random w.toNat).run (m.numeric l h) = outcome m l h w (some (.random w.x w.byte)) := by
  have hr := run_setRegister { m with source := m.source.next.2 } l h w.x
    (m.source.next.1 &&& w.byte)
  have hl : ((m.source.next.1.toNat : Int).land w.byte.toNat) =
      (m.source.next.1 &&& w.byte).toNat := by
    rw [BitVec.toNat_and]
    rfl
  simp only [random, EStateM.run_bind, EStateM.run_get, EStateM.run_set, regX_word, mod_byte,
    numeric_source, hl, with_source, hr]
  exact run_advance _ l h

theorem run_setFlag (c : Bool) :
    (setFlag (if c then 1 else 0)).run (m.numeric l h) =
      .ok () ((m.setRegister Machine.flag (Machine.flagOf c)).numeric l h) := by
  have hf : (if c then 1 else 0 : Int) = (Machine.flagOf c).toNat := by cases c <;> rfl
  rw [hf]
  exact run_setRegister m l h Machine.flag (Machine.flagOf c)

theorem run_result_flag (x : Nibble) {z f : Int} {r : Byte} {c : Bool} (hz : z = r.toNat)
    (hf : f = if c then 1 else 0) :
    (do setRegister x.toNat z; setFlag f; advance).run (m.numeric l h) =
      .ok ()
        (((m.setRegister x r).setRegister Machine.flag (Machine.flagOf c)).advance.numeric l
          h) := by
  simp only [hz, hf, EStateM.run_bind, run_setRegister, run_setFlag, run_advance]

theorem run_arithmetic (w : Word) :
    (arithmetic w.toNat).run (m.numeric l h) =
      outcome m l h w
        ((Arithmetic.ofNibble? w.nibble).map fun op => .arithmetic op w.x w.y) := by
  simp only [arithmetic, mod_nibble, regX_word, regY_word, EStateM.run_bind, run_register]
  cases ho : Arithmetic.ofNibble? w.nibble with
  | none =>
      have hn := (Arithmetic.ofNibble?_eq_none_iff _).mp ho
      repeat rw [if_neg (by omega)]
      simp only [EStateM.run_bind, run_refuse]
      rfl
  | some op =>
      rw [(Arithmetic.ofNibble?_eq_some_iff _ _).mp ho]
      cases op with
      | copy => exact run_result m l h w.x rfl
      | or => exact run_result m l h w.x rfl
      | and => exact run_result m l h w.x rfl
      | xor => exact run_result m l h w.x rfl
      | add => exact run_result_flag m l h w.x (toNat_sum _ _) (carry_bit _ _)
      | subtract => exact run_result_flag m l h w.x (toNat_difference _ _) (keep_bit _ _)
      | shiftRight => exact run_result_flag m l h w.x (toNat_half _) (low_bit _)
      | subtractFrom => exact run_result_flag m l h w.x (toNat_difference _ _) (keep_bit _ _)
      | shiftLeft => exact run_result_flag m l h w.x (toNat_double _) (high_bit _)

theorem run_keyDown (x : Nibble) :
    (look (m.numeric l h).down ((m.v.get x).toNat % 16)).run (m.numeric l h) =
      .ok (m.keyDown x) (m.numeric l h) := by
  have hk : ((m.v.get x).toNat : Int) % 16 = ((m.v.get x).setWidth 4).toNat := by
    rw [BitVec.toNat_setWidth]
    rfl
  rw [hk]
  exact run_look m.keypad.down _ _

theorem run_key (w : Word) :
    (key w.toNat).run (m.numeric l h) = outcome m l h w (Instruction.key? w.x w.byte) := by
  simp only [key, EStateM.run_bind, EStateM.run_get, regX_word, mod_byte, run_register, run_keyDown]
  cases hk : Instruction.key? w.x w.byte with
  | none =>
      obtain ⟨hd, hu⟩ := (Instruction.key?_eq_none_iff _ _).mp hk
      rw [if_neg (by omega), if_neg (by omega), run_refuse]
      rfl
  | some i =>
      unfold Instruction.key? at hk
      split at hk
      · next hb =>
          cases hk
          rw [hb]
          exact run_skipIf m l h _
      · next hb =>
          cases hk
          rw [hb]
          exact run_skipIf m l h _
      · cases hk

theorem run_storeOne {r : Nat} (hr : r < 16) :
    (storeOne r).run (m.numeric l h) =
      .ok ()
        ({ m with
          memory := m.memory.set (m.address + BitVec.ofNat 12 r)
            (m.v.get (BitVec.ofNat 4 r)) }.numeric l h) := by
  have hv := run_register m l h (BitVec.ofNat 4 r)
  rw [← toNat_ofNibble hr] at hv
  simp only [storeOne, EStateM.run_bind, EStateM.run_get, numeric_i, hv, run_writeByte,
    Machine.write, address_add, byte_toNat]
  rfl

theorem run_storeFirst {n : Nat} (hn : n ≤ 16) :
    ((List.range n).forM storeOne).run (m.numeric l h) =
      .ok () ({ m with memory := m.memory.write m.address (m.v.slice 0 n) }.numeric l h) := by
  let state (r : Nat) : Numeric :=
    { m with memory := m.memory.write m.address (m.v.slice 0 r) }.numeric l h
  refine run_forM_range state ?_
  intro r hr
  have hs := run_storeOne { m with memory := m.memory.write m.address (m.v.slice 0 r) } l h
    (Nat.lt_of_lt_of_le hr hn)
  have h0 : (0 : Nibble) + BitVec.ofNat 4 r = BitVec.ofNat 4 r := BitVec.zero_add _
  simp only [state, hs, Bank.slice_succ, Bank.write_concat, Bank.length_slice, h0]
  rfl

theorem run_restoreOne {r : Nat} (hr : r < 16) :
    (restoreOne r).run (m.numeric l h) =
      .ok ()
        ({ m with
          v := m.v.set (BitVec.ofNat 4 r)
            (m.memory.get (m.address + BitVec.ofNat 12 r)) }.numeric l h) := by
  have hv := run_setRegister m l h (BitVec.ofNat 4 r)
    (m.memory.get (m.address + BitVec.ofNat 12 r))
  rw [← toNat_ofNibble hr] at hv
  simp only [restoreOne, EStateM.run_bind, EStateM.run_get, numeric_i, run_readByte, Machine.read,
    address_add]
  exact hv

theorem run_restoreFirst {n : Nat} (hn : n ≤ 16) :
    ((List.range n).forM restoreOne).run (m.numeric l h) =
      .ok () ({ m with v := m.v.write 0 (m.memory.slice m.address n) }.numeric l h) := by
  let state (r : Nat) : Numeric :=
    { m with v := m.v.write 0 (m.memory.slice m.address r) }.numeric l h
  refine run_forM_range state ?_
  intro r hr
  have hs := run_restoreOne { m with v := m.v.write 0 (m.memory.slice m.address r) } l h
    (Nat.lt_of_lt_of_le hr hn)
  have h0 : (0 : Nibble) + BitVec.ofNat 4 r = BitVec.ofNat 4 r := BitVec.zero_add _
  simp only [state, hs, Bank.slice_succ, Bank.write_concat, Bank.length_slice, h0]
  rfl

theorem run_readDelay (x : Nibble) :
    (readDelay x.toNat).run (m.numeric l h) =
      .ok () ((m.execute (.readDelay x)).numeric l h) := by
  rw [readDelay, EStateM.run_bind, EStateM.run_get]
  exact run_result m l h x rfl

theorem run_awaitRelease (x : Nibble) :
    (awaitRelease x.toNat).run (m.numeric l h) =
      .ok () ((m.execute (.awaitRelease x)).numeric l h) := by
  have hn : (m.numeric l h).released = m.keypad.released.map fun key => (key.toNat : Int) := rfl
  have he : m.execute (.awaitRelease x) = m.awaitRelease x := rfl
  simp only [awaitRelease, EStateM.run_bind, EStateM.run_get, hn, he]
  unfold Machine.awaitRelease
  cases hr : m.keypad.released with
  | none => rfl
  | some key =>
      have hk : (key.toNat : Int) = (key.setWidth 8).toNat := by
        rw [BitVec.toNat_setWidth_of_le (by decide)]
      simp only [Option.map_some, EStateM.run_bind, hk, run_setRegister, EStateM.run_modify]
      exact run_advance
        { m.setRegister x (key.setWidth 8) with keypad := { m.keypad with released := none } } l h

theorem run_setDelay (x : Nibble) :
    (setDelay x.toNat).run (m.numeric l h) =
      .ok () ((m.execute (.setDelay x)).numeric l h) := by
  simp only [setDelay, EStateM.run_bind, run_register, EStateM.run_modify, with_delay]
  exact run_advance _ l h

theorem run_setSound (x : Nibble) :
    (setSound x.toNat).run (m.numeric l h) =
      .ok () ((m.execute (.setSound x)).numeric l h) := by
  simp only [setSound, EStateM.run_bind, run_register, EStateM.run_modify, with_sound]
  exact run_advance _ l h

theorem run_addIndex (x : Nibble) :
    (addIndex x.toNat).run (m.numeric l h) =
      .ok () ((m.execute (.addIndex x)).numeric l h) := by
  have hi : (m.i.toNat + (m.v.get x).toNat : Int) % 65536 =
      (m.i + (m.v.get x).setWidth 16 : Word).toNat := by
    simp [BitVec.toNat_add]
  simp only [addIndex, EStateM.run_bind, run_register, EStateM.run_modify, numeric_i, hi, with_i]
  exact run_advance _ l h

theorem run_pointAtGlyph (x : Nibble) :
    (pointAtGlyph x.toNat).run (m.numeric l h) =
      .ok () ((m.execute (.pointAtGlyph x)).numeric l h) := by
  have hi : ((m.v.get x).toNat : Int) % 16 * 5 =
      ((Machine.glyphAddress ((m.v.get x).setWidth 4)).setWidth 16 : Word).toNat := by
    rw [toNat_wide, Machine.glyphAddress, BitVec.toNat_add, BitVec.toNat_ofNat, Font.glyphRows,
      BitVec.toNat_setWidth]
    simp [Machine.fontBase]
    omega
  simp only [pointAtGlyph, EStateM.run_bind, run_register, EStateM.run_modify, hi, with_i]
  exact run_advance _ l h

theorem run_storeDecimal (x : Nibble) :
    (storeDecimal x.toNat).run (m.numeric l h) =
      .ok () ((m.execute (.storeDecimal x)).numeric l h) := by
  have h0 : Field.address m.i.toNat = m.i.address := by
    simpa using address_add m.i 0
  have h1 : Field.address (m.i.toNat + 1) = m.i.address + 1 := address_add m.i 1
  have h2 : Field.address (m.i.toNat + 2) = m.i.address + 1 + 1 := by
    rw [BitVec.add_assoc]
    exact address_add m.i 2
  simp only [storeDecimal, EStateM.run_bind, EStateM.run_get, run_register, numeric_i,
    run_writeByte, Machine.write, h0, h1, h2, toNat_hundreds, toNat_tens, toNat_ones, byte_toNat]
  exact run_advance _ l h

theorem run_store (x : Nibble) :
    (store x.toNat).run (m.numeric l h) = .ok () ((m.execute (.store x)).numeric l h) := by
  have hx := x.isLt
  rw [store, count_registers, EStateM.run_bind, run_storeFirst m l h (by omega)]
  exact run_advance _ l h

theorem run_restore (x : Nibble) :
    (restore x.toNat).run (m.numeric l h) = .ok () ((m.execute (.restore x)).numeric l h) := by
  have hx := x.isLt
  rw [restore, count_registers, EStateM.run_bind, run_restoreFirst m l h (by omega)]
  exact run_advance _ l h

theorem run_misc (w : Word) :
    (misc w.toNat).run (m.numeric l h) = outcome m l h w (Instruction.misc? w.x w.byte) := by
  simp only [misc, regX_word, mod_byte]
  cases hm : Instruction.misc? w.x w.byte with
  | none =>
      have hb := (Instruction.misc?_eq_none_iff _ _).mp hm
      simp only [List.mem_cons, not_or] at hb
      repeat rw [if_neg (by omega)]
      exact run_refuse m l h _
  | some i =>
      unfold Instruction.misc? at hm
      split at hm
      case h_10 => cases hm
      all_goals
        rename_i hb
        cases hm
        rw [hb]
      · exact run_readDelay m l h w.x
      · exact run_awaitRelease m l h w.x
      · exact run_setDelay m l h w.x
      · exact run_setSound m l h w.x
      · exact run_addIndex m l h w.x
      · exact run_pointAtGlyph m l h w.x
      · exact run_storeDecimal m l h w.x
      · exact run_store m l h w.x
      · exact run_restore m l h w.x

end Numeric

end ChipEight
