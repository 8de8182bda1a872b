import ChipEight.Proofs.Footprints
import ChipEight.Proofs.Numeric.Places

/-!
Carry and borrow. Result and flag together are the exact answer in whole numbers
(`Machine.compute_balanced`), wherever the operands come from and whichever register the result
goes to.
-/

namespace ChipEight

def Arithmetic.Balanced (a b result flag : Int) : Arithmetic → Prop
  | .add => a + b = 256 * flag + result
  | .subtract => a - b = result - 256 * (1 - flag)
  | .shiftRight => a = 2 * result + flag
  | .subtractFrom => b - a = result - 256 * (1 - flag)
  | .shiftLeft => 2 * a = 256 * flag + result
  | .copy | .or | .and | .xor => False

namespace Machine

theorem toNat_flagOf (condition : Bool) :
    ((flagOf condition).toNat : Int) = if condition then 1 else 0 := by
  cases condition <;> rfl

theorem toNat_flagOf_cases (condition : Bool) :
    ((flagOf condition).toNat : Int) = 0 ∨ ((flagOf condition).toNat : Int) = 1 := by
  cases condition with
  | false => exact .inl rfl
  | true => exact .inr rfl

theorem difference_balanced (a b : Byte) :
    (a.toNat - b.toNat : Int) =
      (a - b).toNat - 256 * (1 - ((flagOf (decide (b ≤ a))).toNat : Int)) := by
  have ha := a.isLt
  have hb := b.isLt
  rw [toNat_flagOf, ← Numeric.keep_bit, ← Numeric.toNat_difference]
  split <;> omega

theorem compute_balanced (a b : Byte) {op : Arithmetic} (h : op.setsFlag = true) :
    ∃ result condition, compute a b op = (result, some condition) ∧
      op.Balanced a.toNat b.toNat result.toNat (flagOf condition).toNat := by
  have ha := a.isLt
  have hb := b.isLt
  cases op with
  | copy | or | and | xor => cases h
  | add =>
      refine ⟨_, _, rfl, ?_⟩
      rw [toNat_flagOf, ← Numeric.carry_bit, ← Numeric.toNat_sum, Arithmetic.Balanced]
      split <;> omega
  | subtract => exact ⟨_, _, rfl, difference_balanced a b⟩
  | shiftRight =>
      refine ⟨_, _, rfl, ?_⟩
      rw [toNat_flagOf, ← Numeric.low_bit, ← Numeric.toNat_half, Arithmetic.Balanced]
      omega
  | subtractFrom => exact ⟨_, _, rfl, difference_balanced b a⟩
  | shiftLeft =>
      refine ⟨_, _, rfl, ?_⟩
      rw [toNat_flagOf, ← Numeric.high_bit, ← Numeric.toNat_double, Arithmetic.Balanced]
      omega

theorem execute_flagged (m : Machine) {op : Arithmetic} {x y : Nibble} {result : Byte}
    {condition : Bool} (h : compute (m.v.get x) (m.v.get y) op = (result, some condition)) :
    m.execute (.arithmetic op x y) =
      { m with v := (m.v.set x result).set 0xF (flagOf condition), pc := m.pc + 2 } := by
  simp only [execute, arithmetic, h]
  rfl

end Machine

namespace Session

theorem results_balance_with_flag {s : Session} {op : Arithmetic} {x y : Nibble}
    (hw : Instruction.Written s.machine.fetch (.arithmetic op x y)) (h : op.setsFlag = true) :
    let m := s.machine
    let t := (s.perform .step).2.machine
    (∀ fault, (s.perform .step).1 = .error fault → ∃ message, fault = .listener message) ∧
      (∃ result flag : Int, 0 ≤ result ∧ result < 256 ∧ (flag = 0 ∨ flag = 1) ∧
        op.Balanced (m.v.get x).toNat (m.v.get y).toNat result flag ∧
        (t.v.get 0xF).toNat = flag ∧ (x ≠ 0xF → (t.v.get x).toNat = result)) ∧
      (∀ z, z ≠ x → z ≠ 0xF → t.v.get z = m.v.get z) ∧
      t = { m with v := t.v, pc := m.pc + 2 }.retime t.timing := by
  intro m t
  have hi := instruction_of_written hw
  obtain ⟨result, condition, hcompute, hbalanced⟩ :=
    Machine.compute_balanced (m.v.get x) (m.v.get y) h
  have ht : t =
      { m with
        v := (m.v.set x result).set 0xF (Machine.flagOf condition)
        pc := m.pc + 2 }.retime t.timing := by
    rw [← m.execute_flagged hcompute]
    exact perform_retime hi
  have hv : t.v = (m.v.set x result).set 0xF (Machine.flagOf condition) := congrArg Machine.v ht
  refine ⟨fun fault => fault_of_executed hi, ?_, ?_, ?_⟩
  · refine ⟨result.toNat, (Machine.flagOf condition).toNat, by omega, by omega,
      Machine.toNat_flagOf_cases condition, hbalanced, ?_, ?_⟩
    · rw [hv, Bank.get_set_self]
    · intro hx
      rw [hv, Bank.get_set_ne _ _ (Ne.symm hx), Bank.get_set_self]
  · intro z hx hf
    rw [hv, Bank.get_set_ne _ _ (Ne.symm hf), Bank.get_set_ne _ _ (Ne.symm hx)]
  · rw [hv]
    exact ht

/-- `8FF4`, with 200 in the flag register. -/
def flagDoubled : Session :=
  start
    { Machine.fresh 1 Source.silent with
      memory := (Bank.fill 0).write 0x200 [0x8F, 0xF4]
      v := (Bank.fill 7).set 0xF 200 } none

theorem results_balance_with_flag_doubled :
    Instruction.Written flagDoubled.machine.fetch (.arithmetic .add 0xF 0xF) ∧
      Arithmetic.setsFlag .add = true ∧
      ((flagDoubled.perform .step).2.machine.v.get 0xF).toNat = 1 ∧
      (flagDoubled.perform .step).2.machine.v.get 0 = 7 ∧
      (flagDoubled.perform .step).2.machine.pc = 0x202 := by
  have hw : Instruction.Written flagDoubled.machine.fetch (.arithmetic .add 0xF 0xF) := by
    decide +kernel
  obtain ⟨-, ⟨result, flag, hlow, hhigh, hbit, hbalanced, hflag, -⟩, hothers, ht⟩ :=
    results_balance_with_flag hw rfl
  have hsum : (200 + 200 : Int) = 256 * flag + result := hbalanced
  exact ⟨hw, rfl, by omega, hothers 0 (by decide) (by decide), congrArg Machine.pc ht⟩

end Session

end ChipEight
