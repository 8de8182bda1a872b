import ChipEight.Proofs.Numeric.Families
import ChipEight.Proofs.Sprites

/-! Turning cells over one by one draws the sprite that the machine draws row by row. -/

namespace ChipEight

namespace Numeric

theorem xor_cell (lit : Bool) : (cell lit).xor 1 = cell (!lit) := by
  cases lit <;> rfl

theorem cell_ne_zero (lit : Bool) : decide (cell lit ≠ 0) = lit := by
  cases lit <;> rfl

theorem getElem_cells (line : BitVec 64) (k : Nat) (hk : k < (cells line).length) :
    (cells line)[k] = cell (line.getMsbD k) := by
  simp [cells]

theorem set_cells (line : BitVec 64) (column : BitVec 6) :
    (cells line).set column.toNat (cell (!line.getMsbD column.toNat)) =
      cells (line ^^^ Screen.dot column) := by
  refine List.ext_getElem (by simp only [List.length_set, length_cells]) ?_
  intro k _ hk
  have hk64 : k < 64 := by rwa [length_cells] at hk
  rw [List.getElem_set, getElem_cells, getElem_cells, BitVec.getMsbD_xor,
    Screen.getMsbD_dot column hk64]
  split
  · next he => simp [he]
  · next he => simp [Ne.symm he]

theorem run_lookCell (line : BitVec 64) (column : BitVec 6) (n : Numeric) :
    (look (cells line) column.toNat).run n = .ok (cell (line.getMsbD column.toNat)) n := by
  have hc : column.toNat < (cells line).length := by
    rw [length_cells]
    exact column.isLt
  simp [look, List.getElem?_eq_getElem hc, getElem_cells]

theorem run_replaceCell (line : BitVec 64) (column : BitVec 6) (n : Numeric) :
    (replace (cells line) column.toNat ((cell (line.getMsbD column.toNat)).xor 1)).run n =
      .ok (cells (line ^^^ Screen.dot column)) n := by
  have hc : (column.toNat : Int) < 64 := by omega
  rw [xor_cell, ← set_cells]
  simp [replace, length_cells, hc]

theorem run_flip (m : Machine) (l : Option Listener) (h : List Bool) (row : BitVec 5)
    (column : BitVec 6) :
    (flip row.toNat column.toNat).run (m.numeric l h) =
      .ok (m.screen.lit row column)
        ({ m with
          screen := m.screen.set row (m.screen.get row ^^^ Screen.dot column) }.numeric l h) := by
  have hline := run_look_map m.screen cells row (m.numeric l h)
  have hrow := run_replace_map m.screen cells row (m.screen.get row ^^^ Screen.dot column)
    (m.numeric l h)
  simp only [flip, EStateM.run_bind, EStateM.run_get, numeric_screen, hline, run_lookCell,
    run_replaceCell, hrow, EStateM.run_set, EStateM.run_pure, cell_ne_zero]
  rfl

theorem bit_eq_one_iff (bits : Byte) {k : Nat} (hk : k < 8) :
    ((bits.toNat : Int) >>> (7 - k)) % 2 = 1 ↔ bits.getMsbD k = true := by
  have hd : bits.getMsbD k = bits.toNat.testBit (7 - k) := by
    simp [BitVec.getMsbD, BitVec.getLsbD, hk]
  rw [hd, Nat.testBit_eq_decide_div_mod_eq, decide_eq_true_eq, ← Int.natCast_shiftRight,
    Nat.shiftRight_eq_div_pow]
  omega

theorem wrap_column (x : Byte) (k : Nat) :
    ((x.toNat : Int) + k) % 64 = (x.setWidth 6 + BitVec.ofNat 6 k).toNat := by
  rw [BitVec.toNat_add, BitVec.toNat_setWidth, BitVec.toNat_ofNat]
  omega

theorem meets_flipped (line : BitVec 64) (bits : Byte) (column : BitVec 6) {k : Nat}
    {ks : List Nat} (hk : k < 8) (hks : ∀ k' ∈ ks, k' < 8) (hm : k ∉ ks) :
    Screen.meets (line ^^^ Screen.dot (column + BitVec.ofNat 6 k)) bits column ks =
      Screen.meets line bits column ks := by
  have hsame : ∀ k' ∈ ks,
      (line ^^^ Screen.dot (column + BitVec.ofNat 6 k)).getMsbD
          (column + BitVec.ofNat 6 k').toNat =
        line.getMsbD (column + BitVec.ofNat 6 k').toNat := by
    intro k' hk'
    have hne : ¬ (column + BitVec.ofNat 6 k').toNat = (column + BitVec.ofNat 6 k).toNat := by
      intro he
      have h1 := (Screen.toNat_add_eq_iff column _ (hks k' hk')).mp rfl
      have h2 := (Screen.toNat_add_eq_iff column _ hk).mp he
      rw [h1] at h2
      exact hm (h2 ▸ hk')
    rw [BitVec.getMsbD_xor, Screen.getMsbD_dot _ (BitVec.isLt _)]
    simp only [hne, decide_false, Bool.xor_false]
  rw [Bool.eq_iff_iff, Screen.meets, Screen.meets, List.any_eq_true, List.any_eq_true]
  refine exists_congr ?_
  intro k'
  refine and_congr_right ?_
  intro hk'
  rw [hsame k' hk']

theorem run_drawByte (m : Machine) (l : Option Listener) (h : List Bool) (bits x : Byte)
    (row : BitVec 5) {ks : List Nat} (hn : ks.Nodup) (hk : ∀ k ∈ ks, k < 8) :
    (drawByte bits.toNat row.toNat x.toNat ks).run (m.numeric l h) =
      .ok (Screen.meets (m.screen.get row) bits (x.setWidth 6) ks)
        ({ m with
          screen := m.screen.set row
            (m.screen.get row ^^^ Screen.spread bits (x.setWidth 6) ks) }.numeric l h) := by
  induction ks generalizing m with
  | nil =>
      rw [Screen.spread, BitVec.ofNat_eq_ofNat, BitVec.xor_zero, Bank.set_get]
      rfl
  | cons k ks ih =>
      obtain ⟨hm, hn⟩ := List.nodup_cons.mp hn
      have hk0 : k < 8 := hk k List.mem_cons_self
      have hks : ∀ k' ∈ ks, k' < 8 := fun k' hk' => hk k' (List.mem_cons_of_mem k hk')
      simp only [drawByte, bit_eq_one_iff bits hk0, wrap_column, Screen.meets, List.any_cons,
        Screen.spread]
      by_cases hb : bits.getMsbD k
      · have hrest := ih
          { m with
            screen := m.screen.set row
              (m.screen.get row ^^^ Screen.dot (x.setWidth 6 + BitVec.ofNat 6 k)) } hn hks
        simp only [Bank.get_set_self, Bank.set_set, meets_flipped _ bits _ hk0 hks hm] at hrest
        simp only [hb, reduceIte, EStateM.run_bind, run_flip, hrest, EStateM.run_pure,
          Bool.true_and, ← BitVec.xor_assoc]
        rfl
      · have hb : bits.getMsbD k = false := by simpa using hb
        simp only [hb, Bool.false_eq_true, reduceIte, EStateM.run_bind, ih _ hn hks,
          EStateM.run_pure, Bool.false_and, Bool.false_or, BitVec.ofNat_eq_ofNat, BitVec.zero_xor]
        rfl

theorem wrap_row (y : Byte) (k : Nat) :
    ((y.toNat : Int) + k) % 32 = (y.setWidth 5 + BitVec.ofNat 5 k).toNat := by
  rw [BitVec.toNat_add, BitVec.toNat_setWidth, BitVec.toNat_ofNat]
  omega

theorem run_drawRows (m : Machine) (l : Option Listener) (h : List Bool) (x y : Byte) (j n : Nat) :
    (drawRows x.toNat y.toNat (List.range' j n)).run (m.numeric l h) =
      .ok
        (m.screen.draw (x.setWidth 6) (y.setWidth 5 + BitVec.ofNat 5 j)
          (m.memory.slice (m.address + BitVec.ofNat 12 j) n)).2
        ({ m with
          screen := (m.screen.draw (x.setWidth 6) (y.setWidth 5 + BitVec.ofNat 5 j)
            (m.memory.slice (m.address + BitVec.ofNat 12 j) n)).1 }.numeric l h) := by
  induction n generalizing m j with
  | zero => rfl
  | succ n ih =>
      have hk : ∀ k ∈ List.range 8, k < 8 := fun k hk => List.mem_range.mp hk
      have hnext : ∀ width, BitVec.ofNat width (j + 1) = BitVec.ofNat width j + 1 := by
        intro width
        rw [BitVec.ofNat_add]
        rfl
      simp only [List.range'_succ, drawRows, EStateM.run_bind, EStateM.run_get, numeric_i,
        run_readByte, Machine.read, address_add, wrap_row,
        run_drawByte _ _ _ _ _ _ List.nodup_range hk, ih, Screen.spread_range,
        Screen.meets_range, Bank.slice_cons, Screen.draw, EStateM.run_pure, hnext,
        ← BitVec.add_assoc]
      rfl

theorem run_draw (m : Machine) (l : Option Listener) (h : List Bool) (w : Word) :
    (draw w.toNat).run (m.numeric l h) =
      outcome m l h w (some (.draw w.x w.y w.nibble)) := by
  have hrows := run_drawRows m l h (m.v.get w.x) (m.v.get w.y) 0 w.nibble.toNat
  have h5 : ∀ a : BitVec 5, a + BitVec.ofNat 5 0 = a := BitVec.add_zero
  have h12 : ∀ a : Address, a + BitVec.ofNat 12 0 = a := BitVec.add_zero
  rw [h5, h12] at hrows
  simp only [draw, EStateM.run_bind, regX_word, regY_word, run_register, mod_nibble,
    Int.toNat_natCast, List.range_eq_range', hrows, run_setFlag]
  exact run_advance _ l h

end Numeric

end ChipEight
