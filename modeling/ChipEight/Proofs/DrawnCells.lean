import ChipEight.Proofs.KeyReleases
import ChipEight.Proofs.Sprites

/-!
Which cells a sprite turns over. A sprite of at most thirty-two rows meets no cell twice, so a cell
is turned over exactly when it lies under a lit bit (`Screen.lit_draw`), and the flag is set exactly
when a lit cell does (`Screen.draw_hit_iff`).
-/

namespace ChipEight

theorem Bank.getElem?_slice {width : Nat} {α : Type} (b : Bank width α) (i : BitVec width)
    {n k : Nat} (h : k < n) : (b.slice i n)[k]? = some (b.get (i + BitVec.ofNat width k)) := by
  rw [slice, List.getElem?_map, List.getElem?_range h, Option.map_some]

namespace Screen

theorem lit_set (s : Screen) (top row : BitVec 5) (line : BitVec 64) (column : BitVec 6) :
    Screen.lit (s.set top line) row column =
      if top = row then line.getMsbD column.toNat else s.lit row column := by
  rw [lit, Bank.get_set]
  split <;> rfl

section Covers

variable {left : BitVec 6} {top row : BitVec 5} {bits : Byte} {rest bytes : List Byte}

/-- Whether a cell lies under a lit bit of a sprite whose first bit stands at the column `left` of
the row `top`. -/
def covers (left : BitVec 6) (top : BitVec 5) (bytes : List Byte) (row : BitVec 5)
    (column : BitVec 6) : Bool :=
  (bytes[(row - top).toNat]?.getD 0).getMsbD (column - left).toNat

theorem covers_top (left column : BitVec 6) (top : BitVec 5) (bits : Byte) (rest : List Byte) :
    covers left top (bits :: rest) top column = bits.getMsbD (column - left).toNat := by
  simp [covers]

theorem covers_below (h : top ≠ row) (column : BitVec 6) :
    covers left top (bits :: rest) row column = covers left (top + 1) rest row column := by
  rw [covers, covers, ← Bank.toNat_sub_succ h, List.getElem?_cons_succ]

/-- The rows below the first come round to it only after all the others. -/
theorem covers_above (h : rest.length < 32) (column : BitVec 6) :
    covers left (top + 1) rest top column = false := by
  have hlast : (top - (top + 1)).toNat + 1 = 32 := Bank.toNat_sub_add_one top
  rw [covers, List.getElem?_eq_none (by omega)]
  exact BitVec.getMsbD_zero

theorem lit_draw (s : Screen) (h : bytes.length ≤ 32) (row : BitVec 5) (column : BitVec 6) :
    (s.draw left top bytes).1.lit row column =
      (s.lit row column ^^ covers left top bytes row column) := by
  induction bytes generalizing s top with
  | nil => simp [covers]
  | cons bits rest ih =>
      have hrest : rest.length < 32 := h
      change (Screen.draw (s.set top (s.get top ^^^ stamp bits left)) left (top + 1) rest).1.lit
        row column = _
      rw [ih _ (Nat.le_of_lt hrest), lit_set]
      by_cases hr : top = row
      · subst hr
        rw [if_pos rfl, covers_above hrest, covers_top, Bool.xor_false, BitVec.getMsbD_xor,
          getMsbD_stamp]
        rfl
      · rw [if_neg hr, covers_below hr]

theorem draw_hit_iff (s : Screen) (h : bytes.length ≤ 32) :
    (s.draw left top bytes).2 = true ↔
      ∃ row column, s.lit row column = true ∧ covers left top bytes row column = true := by
  induction bytes generalizing s top with
  | nil => simp [covers]
  | cons bits rest ih =>
      have hrest : rest.length < 32 := h
      have hmeets : (s.get top &&& stamp bits left != 0) = true ↔
          ∃ column, s.lit top column = true ∧ bits.getMsbD (column - left).toNat = true := by
        rw [row_ne_zero_iff]
        simp only [BitVec.getMsbD_and, getMsbD_stamp, Bool.and_eq_true]
        rfl
      change (s.get top &&& stamp bits left != 0 ||
        (Screen.draw (s.set top (s.get top ^^^ stamp bits left)) left (top + 1) rest).2) = true ↔ _
      rw [Bool.or_eq_true, hmeets, ih _ (Nat.le_of_lt hrest)]
      constructor
      · rintro (⟨column, hl, hb⟩ | ⟨row, column, hl, hc⟩)
        · exact ⟨top, column, hl, (covers_top left column top bits rest).trans hb⟩
        · have hr : top ≠ row := by
            rintro rfl
            rw [covers_above hrest] at hc
            cases hc
          rw [lit_set, if_neg hr] at hl
          exact ⟨row, column, hl, (covers_below hr column).trans hc⟩
      · rintro ⟨row, column, hl, hc⟩
        by_cases hr : top = row
        · subst hr
          rw [covers_top] at hc
          exact .inl ⟨column, hl, hc⟩
        · rw [covers_below hr] at hc
          refine .inr ⟨row, column, ?_, hc⟩
          rwa [lit_set, if_neg hr]

end Covers

end Screen

namespace Machine

theorem read_index (m : Machine) (k : Nat) :
    m.read ((m.i.toNat + k) % 4096 : Nat) = m.memory.get (m.address + BitVec.ofNat 12 k) := by
  have ha : Field.address ((m.i.toNat + k) % 4096 : Nat) = m.address + BitVec.ofNat 12 k := by
    apply BitVec.eq_of_toNat_eq
    rw [Field.address, BitVec.toNat_ofInt, BitVec.toNat_add, address, Word.toNat_address,
      BitVec.toNat_ofNat]
    omega
  rw [read, ha]

/-- Whether a cell lies under a lit bit of the sprite that an instruction draws. -/
def Covers (m : Machine) (x y rows : Nibble) (row column : Nat) : Prop :=
  ∃ k < rows.toNat, ∃ j < 8,
    row = ((m.v.get y).toNat + k) % 32 ∧ column = ((m.v.get x).toNat + j) % 64 ∧
      (m.read ((m.i.toNat + k) % 4096 : Nat)).getLsbD (7 - j) = true

def sprite (m : Machine) (rows : Nibble) : List Byte := m.memory.slice m.address rows.toNat

theorem length_sprite (m : Machine) (rows : Nibble) : (m.sprite rows).length ≤ 32 := by
  rw [sprite, Bank.length_slice]
  omega

theorem covers_sprite_iff (m : Machine) (x y rows : Nibble) (row : BitVec 5) (column : BitVec 6) :
    Screen.covers ((m.v.get x).setWidth 6) ((m.v.get y).setWidth 5) (m.sprite rows) row column =
        true ↔
      m.Covers x y rows row.toNat column.toNat := by
  have hbit (b : Byte) {j : Nat} (hj : j < 8) : b.getMsbD j = b.getLsbD (7 - j) := by
    simp [BitVec.getMsbD_eq_getLsbD, hj]
  have hrow := row.isLt
  have hcolumn := column.isLt
  constructor
  · intro h
    have hj := BitVec.lt_of_getMsbD h
    have hk : (row - (m.v.get y).setWidth 5).toNat < rows.toNat := by
      refine Nat.lt_of_not_le ?_
      intro hle
      rw [Screen.covers, List.getElem?_eq_none (by rwa [sprite, Bank.length_slice])] at h
      simp at h
    rw [Screen.covers, sprite, Bank.getElem?_slice _ _ hk, Option.getD_some, hbit _ hj,
      ← read_index] at h
    refine ⟨_, hk, _, hj, ?_, ?_, h⟩
    · rw [BitVec.toNat_sub, BitVec.toNat_setWidth]
      omega
    · rw [BitVec.toNat_sub, BitVec.toNat_setWidth]
      omega
  · rintro ⟨k, hk, j, hj, hr, hc, h⟩
    have hk' : (row - (m.v.get y).setWidth 5).toNat = k := by
      rw [BitVec.toNat_sub, BitVec.toNat_setWidth]
      omega
    have hj' : (column - (m.v.get x).setWidth 6).toNat = j := by
      rw [BitVec.toNat_sub, BitVec.toNat_setWidth]
      omega
    rw [Screen.covers, hk', hj', sprite, Bank.getElem?_slice _ _ hk, Option.getD_some, hbit _ hj,
      ← read_index]
    exact h

end Machine

namespace Session

theorem instruction_of_draw {s : Session} (hf : s.machine.fetch.family = 0xD) :
    let w := s.machine.fetch
    s.instruction? .step = some (.draw w.x w.y w.nibble) :=
  (Instruction.ofWord?_eq_some_iff s.machine.fetch (.draw _ _ _)).mpr ⟨hf, rfl, rfl, rfl⟩

theorem perform_draw {s : Session} (hf : s.machine.fetch.family = 0xD) :
    let m := s.machine
    let w := m.fetch
    let t := (s.perform .step).2.machine
    let drawn :=
      m.screen.draw ((m.v.get w.x).setWidth 6) ((m.v.get w.y).setWidth 5) (m.sprite w.nibble)
    t =
      { m with
        screen := drawn.1
        v := m.v.set 0xF (if drawn.2 then 1 else 0)
        pc := m.pc + 2 }.retime t.timing :=
  perform_retime (instruction_of_draw hf)

theorem draw_turns_cells_over {s : Session} (hf : s.machine.fetch.family = 0xD) :
    let m := s.machine
    let w := m.fetch
    let t := (s.perform .step).2.machine
    (∀ fault, (s.perform .step).1 = .error fault → ∃ message, fault = .listener message) ∧
      (∀ row column, t.screen.lit row column ≠ m.screen.lit row column ↔
        m.Covers w.x w.y w.nibble row.toNat column.toNat) ∧
      ∃ hit : Bool,
        (hit = true ↔
          ∃ row column, m.screen.lit row column = true ∧ t.screen.lit row column = false) ∧
        t =
          { m with
            screen := t.screen
            v := m.v.set 0xF (if hit then 1 else 0)
            pc := m.pc + 2 }.retime t.timing := by
  intro m w t
  let left : BitVec 6 := (m.v.get w.x).setWidth 6
  let top : BitVec 5 := (m.v.get w.y).setWidth 5
  let drawn := m.screen.draw left top (m.sprite w.nibble)
  have ht : t =
      { m with
        screen := drawn.1
        v := m.v.set 0xF (if drawn.2 then 1 else 0)
        pc := m.pc + 2 }.retime t.timing := perform_draw hf
  have hscreen : t.screen = drawn.1 := congrArg Machine.screen ht
  have hlit (row : BitVec 5) (column : BitVec 6) :
      t.screen.lit row column =
        (m.screen.lit row column ^^
          Screen.covers left top (m.sprite w.nibble) row column) := by
    rw [hscreen]
    exact Screen.lit_draw m.screen (m.length_sprite w.nibble) row column
  refine ⟨fun fault => fault_of_executed (instruction_of_draw hf), ?_, drawn.2, ?_, ?_⟩
  · intro row column
    rw [hlit, ← Machine.covers_sprite_iff]
    cases m.screen.lit row column <;> simp [left, top]
  · rw [Screen.draw_hit_iff m.screen (m.length_sprite w.nibble)]
    refine exists_congr fun row => exists_congr fun column => and_congr_right fun hon => ?_
    rw [hlit, hon]
    simp
  · rw [hscreen]
    exact ht

/-- `DFF5` with its corner near the corner of the screen, a sprite that begins near the end of the
memory, and one lit cell. -/
def overEdges : Session :=
  start
    { Machine.fresh 1 Source.silent with
      memory :=
        ((Bank.fill 0).write 0x200 [0xDF, 0xF5]).write 0xFFE [0xFF, 0x81, 0x81, 0x81, 0xFF]
      v := (Bank.fill 0).set 0xF 62
      i := 0xFFFE
      screen := Screen.blank.set 0 (Screen.dot 5) } none

theorem draw_turns_cells_over_edges :
    ∃ t, t = (overEdges.perform .step).2.machine ∧ overEdges.machine.fetch.family = 0xD ∧
      overEdges.machine.screen.lit 0 5 = true ∧ t.screen.lit 0 5 = false ∧
      overEdges.machine.screen.lit 2 62 = false ∧ t.screen.lit 2 62 = true ∧
      t.v.get 0xF = 1 ∧ t.pc = 0x202 := by
  have hf : overEdges.machine.fetch.family = 0xD := by decide +kernel
  obtain ⟨-, hcells, hit, hhit, ht⟩ := draw_turns_cells_over hf
  obtain ⟨t, hdef⟩ : ∃ t, t = (overEdges.perform .step).2.machine := ⟨_, rfl⟩
  rw [← hdef] at hcells hhit ht
  have hlit : overEdges.machine.screen.lit 0 5 = true := by decide +kernel
  have hdark : overEdges.machine.screen.lit 2 62 = false := by decide +kernel
  have hcovered : overEdges.machine.Covers 0xF 0xF 5 0 5 :=
    ⟨2, by decide, 7, by decide, by decide +kernel⟩
  have hbottom : overEdges.machine.Covers 0xF 0xF 5 2 62 :=
    ⟨4, by decide, 0, by decide, by decide +kernel⟩
  have hword : overEdges.machine.fetch.x = 0xF ∧ overEdges.machine.fetch.y = 0xF ∧
      overEdges.machine.fetch.nibble = 5 := by
    decide +kernel
  rw [hword.1, hword.2.1, hword.2.2] at hcells
  have hout : t.screen.lit 0 5 = false := by
    have hne := (hcells 0 5).mpr hcovered
    rw [hlit] at hne
    exact Bool.eq_false_iff.mpr hne
  have hon : t.screen.lit 2 62 = true := by
    have hne := (hcells 2 62).mpr hbottom
    rw [hdark] at hne
    exact Bool.of_not_eq_false hne
  have hflag : hit = true := hhit.mpr ⟨0, 5, hlit, hout⟩
  rw [hflag] at ht
  refine ⟨t, hdef, hf, hlit, hout, hdark, hon, ?_, ?_⟩
  · have hv : t.v = overEdges.machine.v.set 0xF 1 := congrArg Machine.v ht
    rw [hv, Bank.get_set_self]
  · have hpc : t.pc = overEdges.machine.pc + 2 := congrArg Machine.pc ht
    rw [hpc]
    rfl

end Session

end ChipEight
