import ChipEight.Word
import ChipEight.Bank
import ChipEight.Fault

/-! Sixteen keys that are up or down, and the key released last, if no wait has taken it yet. -/

namespace ChipEight

structure Keypad where
  down : Bank 4 Bool
  released : Option Nibble
  deriving DecidableEq

def keyOfInt? (n : Int) : Option Nibble :=
  if 0 ≤ n ∧ n < 16 then some (BitVec.ofInt 4 n) else none

theorem keyOfInt?_eq_none_iff (n : Int) : keyOfInt? n = none ↔ n < 0 ∨ 16 ≤ n := by
  unfold keyOfInt?
  split <;> simp <;> omega

theorem keyOfInt?_toNat (key : Nibble) : keyOfInt? key.toNat = some key := by
  have hk := key.isLt
  rw [keyOfInt?, if_pos (by omega), BitVec.ofInt_natCast, BitVec.ofNat_toNat, BitVec.setWidth_eq]

namespace Keypad

def size : Nat := Bank.size 4

def idle : Keypad := ⟨Bank.fill false, none⟩

def set (k : Keypad) (key : Nibble) (pressed : Bool) : Keypad where
  down := k.down.set key pressed
  released := if pressed then k.released else some key

def setKey (k : Keypad) (key : Int) (pressed : Bool) : Except Fault Keypad :=
  match keyOfInt? key with
  | some key => .ok (k.set key pressed)
  | none => .error (.keyOutOfRange key)

end Keypad

end ChipEight
