import ChipEight.Word
import ChipEight.Bank

/-! Sixteen slots used as a ring: a push past the sixteenth overwrites the oldest entry. -/

namespace ChipEight

structure CallStack where
  slots : Bank 4 Word
  top : Nibble
  deriving DecidableEq

namespace CallStack

def depth : Nat := Bank.size 4

def empty : CallStack := ⟨Bank.fill 0, 0⟩

def push (s : CallStack) (w : Word) : CallStack := ⟨s.slots.set s.top w, s.top + 1⟩

def pop (s : CallStack) : Word × CallStack := (s.slots.get (s.top - 1), ⟨s.slots, s.top - 1⟩)

theorem pop_push (s : CallStack) (w : Word) :
    (s.push w).pop = (w, ⟨s.slots.set s.top w, s.top⟩) := by
  have h : s.top + 1 - 1 = s.top := BitVec.add_sub_cancel _ _
  simp only [push, pop, h, Bank.get_set_self]

end CallStack

end ChipEight
