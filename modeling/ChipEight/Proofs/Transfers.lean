import ChipEight.Proofs.DrawnCells
import ChipEight.Proofs.Footprints

/-!
Bytes between registers and memory, from the index on and wrapping at the end of the memory. What a
store lays down (`Machine.Stored`) a restore with the same index takes up (`Machine.Restored`), and
either undoes the other.
-/

namespace ChipEight

namespace Machine

def cellAt (m : Machine) (k : Nat) : Address := BitVec.ofNat 12 (m.i.toNat + k)

structure Stored (x : Nibble) (m t : Machine) : Prop where
  written : ∀ r ≤ x, t.memory.get (m.cellAt r.toNat) = m.v.get r
  elsewhere : ∀ a, (∀ r ≤ x, a ≠ m.cellAt r.toNat) → t.memory.get a = m.memory.get a
  rest : t = { m with memory := t.memory, pc := m.pc + 2 }.retime t.timing

structure Restored (x : Nibble) (m t : Machine) : Prop where
  read : ∀ r ≤ x, t.v.get r = m.memory.get (m.cellAt r.toNat)
  above : ∀ r, x < r → t.v.get r = m.v.get r
  rest : t = { m with v := t.v, pc := m.pc + 2 }.retime t.timing

/-- The digits of a register, the hundreds first, in the three cells from the index on. -/
structure StoredDecimal (x : Nibble) (m t : Machine) (hundreds tens ones : Byte) : Prop where
  digits : hundreds.toNat ≤ 9 ∧ tens.toNat ≤ 9 ∧ ones.toNat ≤ 9
  value : 100 * hundreds.toNat + 10 * tens.toNat + ones.toNat = (m.v.get x).toNat
  written : t.memory.get (m.cellAt 0) = hundreds ∧ t.memory.get (m.cellAt 1) = tens ∧
    t.memory.get (m.cellAt 2) = ones
  elsewhere : ∀ a, (∀ k < 3, a ≠ m.cellAt k) → t.memory.get a = m.memory.get a
  rest : t = { m with memory := t.memory, pc := m.pc + 2 }.retime t.timing

section Cells

variable (m : Machine) {bytes : List Byte} {k : Nat}

theorem cellAt_eq (k : Nat) : m.cellAt k = m.address + BitVec.ofNat 12 k := by
  apply BitVec.eq_of_toNat_eq
  rw [cellAt, BitVec.toNat_add, address, Word.toNat_address, BitVec.toNat_ofNat, BitVec.toNat_ofNat]
  omega

theorem get_write_cellAt (hsize : bytes.length ≤ 4096) (hk : k < bytes.length) :
    (m.memory.write m.address bytes).get (m.cellAt k) = bytes[k] := by
  have ha : m.address = BitVec.ofNat 12 m.i.toNat := (BitVec.ofNat_toNat 12 m.i).symm
  rw [ha]
  exact Bank.get_write_inside m.memory m.i.toNat hsize hk

theorem get_write_elsewhere (hsize : bytes.length ≤ 4096) {a : Address}
    (ha : ∀ k < bytes.length, a ≠ m.cellAt k) :
    (m.memory.write m.address bytes).get a = m.memory.get a := by
  have hp : Part.cell a ∉ m.cellsFrom bytes.length := by
    intro hm
    obtain ⟨k, hk, he⟩ := List.mem_map.mp hm
    exact ha k (List.mem_range.mp hk) (Part.cell.inj he).symm
  exact m.same_writeCells hsize hp

theorem getElem_registersUpTo {x r : Nibble} (h : r.toNat < (m.registersUpTo x).length) :
    (m.registersUpTo x)[r.toNat] = m.v.get r := by
  have hr : (0 : Nibble) + BitVec.ofNat 4 r.toNat = r := by
    rw [BitVec.ofNat_toNat, BitVec.setWidth_eq]
    exact BitVec.zero_add r
  simp only [registersUpTo, Bank.slice, List.getElem_map, List.getElem_range, hr]

theorem decimal_value (b : Byte) :
    100 * (b / 100).toNat + 10 * (b / 10 % 10).toNat + (b % 10).toNat = b.toNat := by
  rw [BitVec.toNat_umod, BitVec.toNat_umod, BitVec.toNat_udiv, BitVec.toNat_udiv]
  change 100 * (b.toNat / 100) + 10 * (b.toNat / 10 % 10) + b.toNat % 10 = b.toNat
  omega

theorem decimal_digits (b : Byte) :
    (b / 100).toNat ≤ 9 ∧ (b / 10 % 10).toNat ≤ 9 ∧ (b % 10).toNat ≤ 9 := by
  have hb := b.isLt
  rw [BitVec.toNat_umod, BitVec.toNat_umod, BitVec.toNat_udiv, BitVec.toNat_udiv]
  change b.toNat / 100 ≤ 9 ∧ b.toNat / 10 % 10 ≤ 9 ∧ b.toNat % 10 ≤ 9
  omega

end Cells

variable {x : Nibble} {m t u v : Machine}

theorem cellAt_of_index (h : u.i = m.i) : u.cellAt = m.cellAt := by
  funext k
  rw [cellAt, h, cellAt]

theorem Stored.index_eq (h : Stored x m t) : t.i = m.i :=
  (congrArg Machine.i h.rest).trans rfl

theorem Restored.index_eq (h : Restored x m t) : t.i = m.i :=
  (congrArg Machine.i h.rest).trans rfl

theorem Restored.memory_eq (h : Restored x m t) : t.memory = m.memory :=
  (congrArg Machine.memory h.rest).trans rfl

theorem Stored.restored (hs : Stored x m t) (hr : Restored x u v) (hi : u.i = m.i)
    (hkept : ∀ r ≤ x, u.memory.get (m.cellAt r.toNat) = t.memory.get (m.cellAt r.toNat)) :
    ∀ r ≤ x, v.v.get r = m.v.get r := by
  intro r hx
  rw [hr.read r hx, cellAt_of_index hi, hkept r hx, hs.written r hx]

theorem Restored.stored (hr : Restored x m t) (hs : Stored x u v) (hi : u.i = m.i)
    (hmemory : u.memory = m.memory) (hv : ∀ r ≤ x, u.v.get r = t.v.get r) :
    v.memory = m.memory := by
  apply Bank.ext
  intro a
  have hcells := cellAt_of_index hi
  by_cases ha : ∃ r ≤ x, a = m.cellAt r.toNat
  · obtain ⟨r, hx, rfl⟩ := ha
    rw [← hcells, hs.written r hx, hv r hx, hr.read r hx, hcells]
  · rw [hs.elsewhere a, hmemory]
    intro r hx he
    exact ha ⟨r, hx, he.trans (congrFun hcells r.toNat)⟩

end Machine

namespace Session

open Machine (Stored Restored StoredDecimal)

variable {s : Session} {x : Nibble}

theorem step_stored (h : Instruction.Written s.machine.fetch (.store x)) :
    Stored x s.machine (s.perform .step).2.machine := by
  have ht := perform_retime (instruction_of_written h)
  have hmemory : (s.perform .step).2.machine.memory =
      s.machine.memory.write s.machine.address (s.machine.registersUpTo x) :=
    congrArg Machine.memory ht
  have hlength : (s.machine.registersUpTo x).length = x.toNat + 1 := Bank.length_slice _ _ _
  have hx := x.isLt
  refine ⟨?_, ?_, ?_⟩
  · intro r hr
    have hlt : r.toNat < (s.machine.registersUpTo x).length := by
      rw [BitVec.le_def] at hr
      omega
    rw [hmemory, Machine.get_write_cellAt _ (by omega) hlt, Machine.getElem_registersUpTo]
  · intro a ha
    rw [hmemory]
    apply Machine.get_write_elsewhere _ (by omega)
    intro k hk
    have hn : (BitVec.ofNat 4 k : Nibble).toNat = k := by
      rw [BitVec.toNat_ofNat]
      omega
    have hle : (BitVec.ofNat 4 k : Nibble) ≤ x := by
      rw [BitVec.le_def]
      omega
    have hne := ha _ hle
    rwa [hn] at hne
  · rw [hmemory]
    exact ht

theorem step_restored (h : Instruction.Written s.machine.fetch (.restore x)) :
    Restored x s.machine (s.perform .step).2.machine := by
  have ht := perform_retime (instruction_of_written h)
  have hv : (s.perform .step).2.machine.v =
      s.machine.v.write 0 (s.machine.memory.slice s.machine.address (x.toNat + 1)) :=
    congrArg Machine.v ht
  have hx := x.isLt
  have hsize : (s.machine.memory.slice s.machine.address (x.toNat + 1)).length ≤
      Bank.size 4 := by
    rw [Bank.length_slice]
    exact hx
  refine ⟨?_, ?_, ?_⟩
  · intro r hr
    have hlt : r.toNat < x.toNat + 1 := by
      rw [BitVec.le_def] at hr
      omega
    rw [hv, Bank.get_write _ _ _ _ hsize, show r - 0 = r from BitVec.sub_zero r,
      Bank.getElem?_slice _ _ hlt, Option.getD_some, Machine.cellAt_eq]
  · intro r hr
    rw [hv, Bank.get_write_outside _ hsize]
    rw [Bank.length_slice, show r - 0 = r from BitVec.sub_zero r]
    exact hr
  · rw [hv]
    exact ht

theorem step_storedDecimal (h : Instruction.Written s.machine.fetch (.storeDecimal x)) :
    ∃ hundreds tens ones,
      StoredDecimal x s.machine (s.perform .step).2.machine hundreds tens ones := by
  have ht := perform_retime (instruction_of_written h)
  have hmemory : (s.perform .step).2.machine.memory =
      s.machine.memory.write s.machine.address (Machine.decimal (s.machine.v.get x)) :=
    congrArg Machine.memory ht
  have hlength : (Machine.decimal (s.machine.v.get x)).length = 3 := rfl
  have hcell {k : Nat} (hk : k < (Machine.decimal (s.machine.v.get x)).length) :
      (s.perform .step).2.machine.memory.get (s.machine.cellAt k) =
        (Machine.decimal (s.machine.v.get x))[k] := by
    rw [hmemory]
    exact Machine.get_write_cellAt _ (by omega) hk
  refine ⟨_, _, _, Machine.decimal_digits (s.machine.v.get x),
    Machine.decimal_value (s.machine.v.get x), ?_, ?_, ?_⟩
  · exact ⟨hcell (k := 0) (by omega), hcell (k := 1) (by omega), hcell (k := 2) (by omega)⟩
  · intro a ha
    rw [hmemory]
    exact Machine.get_write_elsewhere _ (by omega) ha
  · rw [hmemory]
    exact ht

theorem transfers_exact (s : Session) (x : Nibble) :
    let m := s.machine
    let t := (s.perform .step).2.machine
    (∀ i, Instruction.Written m.fetch i → ∀ fault, (s.perform .step).1 = .error fault →
      ∃ message, fault = .listener message) ∧
    (Instruction.Written m.fetch (.store x) →
      Stored x m t ∧
      ∀ u : Session, Instruction.Written u.machine.fetch (.restore x) → u.machine.i = m.i →
        (∀ r ≤ x,
          u.machine.memory.get (m.cellAt r.toNat) = t.memory.get (m.cellAt r.toNat)) →
        let v := (u.perform .step).2.machine
        Restored x u.machine v ∧ ∀ r ≤ x, v.v.get r = m.v.get r) ∧
    (Instruction.Written m.fetch (.restore x) →
      Restored x m t ∧
      ∀ u : Session, Instruction.Written u.machine.fetch (.store x) → u.machine.i = m.i →
        u.machine.memory = t.memory → (∀ r ≤ x, u.machine.v.get r = t.v.get r) →
        (u.perform .step).2.machine.memory = m.memory) ∧
    (Instruction.Written m.fetch (.storeDecimal x) →
      ∃ hundreds tens ones, StoredDecimal x m t hundreds tens ones) := by
  intro m t
  refine ⟨fun i hi fault => fault_of_executed (instruction_of_written hi), ?_, ?_,
    step_storedDecimal⟩
  · intro hw
    refine ⟨step_stored hw, ?_⟩
    intro u hu hi hkept
    exact ⟨step_restored hu, (step_stored hw).restored (step_restored hu) hi hkept⟩
  · intro hw
    have hr := step_restored hw
    refine ⟨hr, ?_⟩
    intro u hu hi hmemory hv
    exact hr.stored (step_stored hu) hi (hmemory.trans hr.memory_eq) hv

/-- Stores, restores and stores two registers across the end of the memory, and then the digits of
the second. -/
def shuttle : Session :=
  start
    { Machine.fresh 1 Source.silent with
      memory := (Bank.fill 0).write 0x200 [0xF1, 0x55, 0xF1, 0x65, 0xF1, 0x55, 0xF1, 0x33]
      v := ((Bank.fill 0).set 0 0xAA).set 1 0xBB
      i := 0xFFFF } none

theorem transfers_exact_over_end :
    ∃ t u v w : Session, t = (shuttle.perform .step).2 ∧ u = (t.perform .step).2 ∧
      v = (u.perform .step).2 ∧ w = (v.perform .step).2 ∧
      Instruction.Written shuttle.machine.fetch (.store 1) ∧
      t.machine.memory.get 0xFFF = 0xAA ∧ t.machine.memory.get 0x000 = 0xBB ∧
      Instruction.Written t.machine.fetch (.restore 1) ∧
      u.machine.v.get 0 = 0xAA ∧ u.machine.v.get 1 = 0xBB ∧
      Instruction.Written u.machine.fetch (.store 1) ∧ v.machine.memory = t.machine.memory ∧
      Instruction.Written v.machine.fetch (.storeDecimal 1) ∧
      (w.machine.memory.get 0xFFF).toNat = 1 ∧ (w.machine.memory.get 0x000).toNat = 8 ∧
      (w.machine.memory.get 0x001).toNat = 7 := by
  obtain ⟨t, ht⟩ : ∃ t, t = (shuttle.perform .step).2 := ⟨_, rfl⟩
  obtain ⟨u, hu⟩ : ∃ u, u = (t.perform .step).2 := ⟨_, rfl⟩
  obtain ⟨v, hv⟩ : ∃ v, v = (u.perform .step).2 := ⟨_, rfl⟩
  obtain ⟨w, hw⟩ : ∃ w, w = (v.perform .step).2 := ⟨_, rfl⟩
  have hfirst : Instruction.Written shuttle.machine.fetch (.store 1) := by decide +kernel
  have hsecond : Instruction.Written t.machine.fetch (.restore 1) := by
    rw [ht]
    decide +kernel
  have hthird : Instruction.Written u.machine.fetch (.store 1) := by
    rw [hu, ht]
    decide +kernel
  have hfourth : Instruction.Written v.machine.fetch (.storeDecimal 1) := by
    rw [hv, hu, ht]
    decide +kernel
  obtain ⟨-, hstore, -, -⟩ := transfers_exact shuttle 1
  rw [← ht] at hstore
  obtain ⟨hstored, hback⟩ := hstore hfirst
  obtain ⟨-, hregisters⟩ := hback t hsecond hstored.index_eq fun r _ => rfl
  rw [← hu] at hregisters
  obtain ⟨-, -, hrestore, -⟩ := transfers_exact t 1
  rw [← hu] at hrestore
  obtain ⟨hrestored, hagain⟩ := hrestore hsecond
  have hkept := hagain u hthird hrestored.index_eq rfl fun r _ => rfl
  rw [← hv] at hkept
  obtain ⟨-, -, -, hdecimal⟩ := transfers_exact v 1
  rw [← hw] at hdecimal
  obtain ⟨hundreds, tens, ones, ⟨hh, hten, ho⟩, hvalue, hcells, -, -⟩ := hdecimal hfourth
  have hends : shuttle.machine.cellAt 0 = 0xFFF ∧ shuttle.machine.cellAt 1 = 0 := by decide +kernel
  have hplaces : v.machine.cellAt 0 = 0xFFF ∧ v.machine.cellAt 1 = 0 ∧
      v.machine.cellAt 2 = 1 := by
    rw [hv, hu, ht]
    decide +kernel
  have hsecondRegister : (v.machine.v.get 1).toNat = 187 := by
    rw [hv, hu, ht]
    decide +kernel
  have hzero := hstored.written 0 (by decide)
  have hone := hstored.written 1 (by decide)
  rw [show (0 : Nibble).toNat = 0 from rfl, hends.1] at hzero
  rw [show (1 : Nibble).toNat = 1 from rfl, hends.2] at hone
  rw [hplaces.1, hplaces.2.1, hplaces.2.2] at hcells
  refine ⟨t, u, v, w, ht, hu, hv, hw, hfirst, hzero, hone, hsecond, hregisters 0 (by decide),
    hregisters 1 (by decide), hthird, hkept, hfourth, ?_⟩
  rw [hcells.1, hcells.2.1, hcells.2.2]
  omega

end Session

end ChipEight
