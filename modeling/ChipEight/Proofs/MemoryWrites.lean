import ChipEight.Proofs.Numeric.Commands
import Mathlib.Data.List.Induction

/-!
Memory under writes at any addresses. A cell holds what the last write to it left there, whatever
number its address was given by (`Machine.toNat_read_writeAll`), and no read or write goes wrong in
whole numbers (`Numeric.run_writeAll`, `Numeric.run_readByte_of_memory`).
-/

namespace ChipEight

/-- The byte that the last of some writes to a cell leaves there. -/
def lastWritten (writes : List (Int × Int)) (a : Int) : Option Int :=
  (writes.filter fun w => w.1 % 4096 = a % 4096).getLast?.map fun w => w.2 % 256

theorem lastWritten_concat (writes : List (Int × Int)) (w : Int × Int) (a : Int) :
    lastWritten (writes ++ [w]) a =
      if w.1 % 4096 = a % 4096 then some (w.2 % 256) else lastWritten writes a := by
  rw [lastWritten, List.filter_append]
  split
  · next h => simp [h]
  · next h => simp [h, lastWritten]

namespace Machine

def writeAll (m : Machine) (writes : List (Int × Int)) : Machine :=
  writes.foldl (fun m w => m.write w.1 w.2) m

theorem writeAll_concat (m : Machine) (writes : List (Int × Int)) (w : Int × Int) :
    m.writeAll (writes ++ [w]) = (m.writeAll writes).write w.1 w.2 := by
  rw [writeAll, List.foldl_append]
  rfl

theorem writeAll_rest (m : Machine) (writes : List (Int × Int)) :
    m.writeAll writes = { m with memory := (m.writeAll writes).memory } := by
  induction writes generalizing m with
  | nil => rfl
  | cons w writes ih => exact ih (m.write w.1 w.2)

/-- From the last write back: it decides about its own cell and leaves the rest to those before. -/
theorem toNat_read_writeAll (m : Machine) (writes : List (Int × Int)) (a : Int) :
    (((m.writeAll writes).read a).toNat : Int) =
      (lastWritten writes a).getD ((m.read a).toNat : Int) := by
  induction writes using List.reverseRecOn with
  | nil => rfl
  | append_singleton writes w ih =>
      rw [writeAll_concat, read_write, lastWritten_concat]
      split
      · rw [Numeric.toNat_byte]
        rfl
      · exact ih

end Machine

namespace Numeric

def writeAll (writes : List (Int × Int)) : Program Unit := writes.forM fun w => writeByte w.1 w.2

theorem run_writeAll (m : Machine) (l : Option Listener) (h : List Bool)
    (writes : List (Int × Int)) :
    (writeAll writes).run (m.numeric l h) = .ok () ((m.writeAll writes).numeric l h) := by
  induction writes generalizing m with
  | nil => rfl
  | cons w writes ih =>
      have hw := ih (m.write w.1 w.2)
      rw [writeAll, List.forM_eq_forM] at hw ⊢
      rw [List.forM_cons, EStateM.run_bind, run_writeByte]
      exact hw

end Numeric

namespace Session

theorem after_write (s : Session) (writes : List (Int × Int)) :
    s.after (writes.map fun w => .write w.1 w.2) =
      { s with machine := s.machine.writeAll writes } := by
  induction writes generalizing s with
  | nil => rfl
  | cons w writes ih => exact ih (s.perform (.write w.1 w.2)).2

theorem memory_keeps_last_write (s : Session) (writes : List (Int × Int)) (a : Int) :
    let t := s.after (writes.map fun w => .write w.1 w.2)
    let byte := (lastWritten writes a).getD ((s.machine.read a).toNat : Int)
    ((t.machine.read a).toNat : Int) = byte ∧
      t = { s with machine := { s.machine with memory := t.machine.memory } } ∧
      t.machine.fetch.toNat =
        256 * (t.machine.read t.machine.pc.toNat).toNat +
          (t.machine.read (t.machine.pc.toNat + 1)).toNat ∧
      (Numeric.writeAll writes).run s.numeric = .ok () t.numeric ∧
      (Numeric.readByte a).run t.numeric = .ok byte t.numeric ∧
      ∀ pc : Int, Numeric.fetch.run { t.numeric with pc } =
        .ok (256 * (t.machine.read pc).toNat + (t.machine.read (pc + 1)).toNat : Int)
          { t.numeric with pc } := by
  intro t byte
  have ht : t = { s with machine := s.machine.writeAll writes } := s.after_write writes
  have hread : ((t.machine.read a).toNat : Int) = byte := by
    rw [ht]
    exact s.machine.toNat_read_writeAll writes a
  refine ⟨hread, ?_, t.machine.toNat_fetch_eq_add, ?_, ?_, ?_⟩
  · rw [ht]
    exact congrArg (fun machine => { s with machine }) (s.machine.writeAll_rest writes)
  · rw [ht]
    exact Numeric.run_writeAll s.machine s.listener s.heard writes
  · rw [← hread]
    exact Numeric.run_readByte_of_memory t.machine rfl a
  · intro pc
    exact Numeric.run_fetch_of_memory t.machine rfl

end Session

end ChipEight
