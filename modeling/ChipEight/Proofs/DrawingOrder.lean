import ChipEight.Proofs.DrawnCells

/-!
Drawing in any order. A stroke turns over the cells under its sprite whatever the screen shows
(`Stroke.lit_paint`), so two strokes come to the same in either order and a stroke made twice
leaves the screen as it was. Only the flag tells the orders apart.
-/

namespace ChipEight

/-- All that a drawing instruction reads besides memory and screen. -/
structure Stroke where
  index : Word
  column : Byte
  row : Byte
  rows : Nibble

namespace Screen

theorem exists_covers_iff {left : BitVec 6} {top : BitVec 5} {bytes : List Byte}
    (h : bytes.length ≤ 32) :
    (∃ row column, covers left top bytes row column = true) ↔ ∃ bits ∈ bytes, bits ≠ 0 := by
  constructor
  · rintro ⟨row, column, hc⟩
    rw [covers] at hc
    cases hb : bytes[(row - top).toNat]? with
    | none =>
        rw [hb] at hc
        simp at hc
    | some bits =>
        refine ⟨bits, List.mem_of_getElem? hb, ?_⟩
        rintro rfl
        rw [hb] at hc
        simp at hc
  · rintro ⟨bits, hm, hne⟩
    obtain ⟨k, hk, hb⟩ := List.mem_iff_getElem.mp hm
    obtain ⟨j, hj, hbit⟩ : ∃ j < 8, bits.getMsbD j = true := by
      refine Classical.byContradiction ?_
      intro hn
      refine hne (BitVec.eq_of_getMsbD_eq ?_)
      intro j hj
      have hbit : ¬ bits.getMsbD j = true := fun hbit => hn ⟨j, hj, hbit⟩
      simpa using hbit
    refine ⟨top + BitVec.ofNat 5 k, left + BitVec.ofNat 6 j, ?_⟩
    have hrow : (top + BitVec.ofNat 5 k - top).toNat = k := by
      rw [BitVec.toNat_sub, BitVec.toNat_add, BitVec.toNat_ofNat]
      omega
    have hcolumn : (left + BitVec.ofNat 6 j - left).toNat = j := by
      rw [BitVec.toNat_sub, BitVec.toNat_add, BitVec.toNat_ofNat]
      omega
    rw [covers, hrow, hcolumn, List.getElem?_eq_getElem hk, hb]
    exact hbit

theorem ext_lit {a b : Screen} (h : ∀ row column, a.lit row column = b.lit row column) : a = b :=
  Bank.ext fun row => row_ext fun column => h row column

end Screen

namespace Stroke

variable (memory : Memory) (a : Screen) (d e : Stroke)

def bytes : List Byte := memory.slice d.index.address d.rows.toNat

def covers (row : BitVec 5) (column : BitVec 6) : Bool :=
  Screen.covers (d.column.setWidth 6) (d.row.setWidth 5) (d.bytes memory) row column

def draw : Screen × Bool :=
  a.draw (d.column.setWidth 6) (d.row.setWidth 5) (d.bytes memory)

def paint : Screen := (d.draw memory a).1

theorem length_bytes : (d.bytes memory).length ≤ 32 := by
  rw [bytes, Bank.length_slice]
  omega

theorem lit_paint (row : BitVec 5) (column : BitVec 6) :
    (paint memory a d).lit row column = (a.lit row column ^^ d.covers memory row column) :=
  Screen.lit_draw a (d.length_bytes memory) row column

theorem paint_comm :
    paint memory (paint memory a d) e = paint memory (paint memory a e) d := by
  refine Screen.ext_lit ?_
  intro row column
  simp only [lit_paint]
  exact Bool.xor_right_comm _ _ _

theorem paint_paint : paint memory (paint memory a d) d = a := by
  refine Screen.ext_lit ?_
  intro row column
  simp only [lit_paint, Bool.xor_assoc, Bool.xor_self, Bool.xor_false]

theorem foldl_paint_perm {ds es : List Stroke} (h : ds.Perm es) :
    ds.foldl (paint memory) a = es.foldl (paint memory) a :=
  h.foldl_eq' (fun d _ e _ a => paint_comm memory a d e) a

theorem foldl_paint_reverse (ds : List Stroke) :
    (ds ++ ds.reverse).foldl (paint memory) a = a := by
  induction ds generalizing a with
  | nil => rfl
  | cons d ds ih =>
      -- The strokes in between cancel, so the last one meets what the first one left.
      rw [List.reverse_cons, ← List.append_assoc, List.foldl_append]
      change paint memory ((ds ++ ds.reverse).foldl (paint memory) (paint memory a d)) d = a
      rw [ih]
      exact paint_paint memory a d

theorem foldl_paint_append_perm {ds es : List Stroke} (h : ds.Perm es) :
    (ds ++ es).foldl (paint memory) a = a := by
  have hr : (ds ++ es).Perm (ds ++ ds.reverse) :=
    (h.symm.trans ds.reverse_perm.symm).append_left ds
  rw [foldl_paint_perm memory a hr, foldl_paint_reverse]

theorem exists_covers_iff :
    (∃ row column, d.covers memory row column = true) ↔
      ∃ k < d.rows.toNat, memory.get (d.index.address + BitVec.ofNat 12 k) ≠ 0 := by
  refine (Screen.exists_covers_iff (d.length_bytes memory)).trans ?_
  simp only [bytes, Bank.slice, List.mem_map, List.mem_range]
  constructor
  · rintro ⟨-, ⟨k, hk, rfl⟩, hne⟩
    exact ⟨k, hk, hne⟩
  · rintro ⟨k, hk, hne⟩
    exact ⟨_, ⟨k, hk, rfl⟩, hne⟩

theorem hit_twice_iff :
    (d.draw memory a).2 = true ∨ (d.draw memory (paint memory a d)).2 = true ↔
      ∃ row column, d.covers memory row column = true := by
  have hhit (b : Screen) : (d.draw memory b).2 = true ↔
      ∃ row column, b.lit row column = true ∧ d.covers memory row column = true :=
    Screen.draw_hit_iff b (d.length_bytes memory)
  rw [hhit, hhit]
  constructor
  · rintro (⟨row, column, -, hc⟩ | ⟨row, column, -, hc⟩)
    · exact ⟨row, column, hc⟩
    · exact ⟨row, column, hc⟩
  · rintro ⟨row, column, hc⟩
    -- A covered cell is lit before the first stroke or, turned over by it, before the second.
    cases hl : a.lit row column with
    | true => exact .inl ⟨row, column, hl, hc⟩
    | false =>
        refine .inr ⟨row, column, ?_, hc⟩
        rw [lit_paint, hl, hc]
        rfl

end Stroke

namespace Session

structure AboutTo (s : Session) (d : Stroke) : Prop where
  family : s.machine.fetch.family = 0xD
  rows : s.machine.fetch.nibble = d.rows
  index : s.machine.i = d.index
  column : s.machine.v.get s.machine.fetch.x = d.column
  row : s.machine.v.get s.machine.fetch.y = d.row

theorem AboutTo.step {s : Session} {d : Stroke} (h : s.AboutTo d) :
    let m := s.machine
    let t := (s.perform .step).2.machine
    let drawn := d.draw m.memory m.screen
    t.screen = drawn.1 ∧ t.v.get 0xF = if drawn.2 then 1 else 0 := by
  intro m t drawn
  have hdrawn : m.screen.draw ((m.v.get m.fetch.x).setWidth 6) ((m.v.get m.fetch.y).setWidth 5)
      (m.sprite m.fetch.nibble) = drawn := by
    rw [h.column, h.row, h.rows, Machine.sprite, Machine.address, h.index]
    rfl
  have ht : t =
      { m with
        screen := drawn.1
        v := m.v.set 0xF (if drawn.2 then 1 else 0)
        pc := m.pc + 2 }.retime t.timing := by
    rw [← hdrawn]
    exact perform_draw h.family
  refine ⟨congrArg Machine.screen ht, ?_⟩
  have hv : t.v = m.v.set 0xF (if drawn.2 then 1 else 0) := congrArg Machine.v ht
  rw [hv, Bank.get_set_self]

/-- The screen before and after strokes that are made by steps. Between two steps all may be set
anew but the memory and the screen. -/
inductive Drawn (memory : Memory) : List Stroke → Screen → Screen → Prop
  | none (a : Screen) : Drawn memory [] a a
  | stroke {s : Session} {d : Stroke} {ds : List Stroke} {b : Screen} (hd : s.AboutTo d)
      (hm : s.machine.memory = memory)
      (hs : Drawn memory ds (s.perform .step).2.machine.screen b) :
      Drawn memory (d :: ds) s.machine.screen b

/-- The memory holds an instruction that makes the stroke. -/
def CanDraw (memory : Memory) (d : Stroke) : Prop :=
  ∃ s : Session, s.machine.memory = memory ∧ s.AboutTo d

theorem CanDraw.on {memory : Memory} {d : Stroke} (h : CanDraw memory d) (a : Screen) :
    ∃ s : Session, s.machine.memory = memory ∧ s.machine.screen = a ∧ s.AboutTo d := by
  obtain ⟨s, hm, hd⟩ := h
  refine ⟨{ s with machine := { s.machine with screen := a } }, hm, rfl, ?_⟩
  exact ⟨hd.family, hd.rows, hd.index, hd.column, hd.row⟩

theorem drawn_iff {memory : Memory} {ds : List Stroke} {a b : Screen} :
    Drawn memory ds a b ↔
      (∀ d ∈ ds, CanDraw memory d) ∧ b = ds.foldl (Stroke.paint memory) a := by
  constructor
  · intro h
    induction h with
    | none a => exact ⟨nofun, rfl⟩
    | @stroke s d ds b hd hm _ ih =>
        obtain ⟨hcan, hb⟩ := ih
        refine ⟨List.forall_mem_cons.mpr ⟨⟨s, hm, hd⟩, hcan⟩, ?_⟩
        rw [hb, List.foldl_cons, hd.step.1, hm]
        rfl
  · rintro ⟨hcan, rfl⟩
    induction ds generalizing a with
    | nil => exact .none a
    | cons d ds ih =>
        obtain ⟨hd, hds⟩ := List.forall_mem_cons.mp hcan
        obtain ⟨s, rfl, rfl, hs⟩ := hd.on a
        refine .stroke hs rfl ?_
        rw [hs.step.1]
        exact ih hds

theorem strokes_commute_and_cancel {ds es : List Stroke} (h : ds.Perm es) (memory : Memory)
    (a : Screen) :
    ds.foldl (Stroke.paint memory) a = es.foldl (Stroke.paint memory) a ∧
      (ds ++ es).foldl (Stroke.paint memory) a = a ∧
      (∀ fs b, Drawn memory fs a b ↔
        (∀ d ∈ fs, CanDraw memory d) ∧ b = fs.foldl (Stroke.paint memory) a) ∧
      (∀ b, Drawn memory ds a b ↔ Drawn memory es a b) ∧
      (∀ b, Drawn memory (ds ++ es) a b ↔ (∀ d ∈ ds, CanDraw memory d) ∧ b = a) ∧
      ∀ (d : Stroke) (s t : Session), s.AboutTo d → s.machine.memory = memory →
        s.machine.screen = a → t.AboutTo d → t.machine.memory = memory →
        t.machine.screen = (s.perform .step).2.machine.screen →
        ((s.perform .step).2.machine.v.get 0xF = 1 ∨ (t.perform .step).2.machine.v.get 0xF = 1 ↔
          ∃ k < d.rows.toNat, memory.get (d.index.address + BitVec.ofNat 12 k) ≠ 0) := by
  have hperm := Stroke.foldl_paint_perm memory a h
  have hcancel := Stroke.foldl_paint_append_perm memory a h
  refine ⟨hperm, hcancel, fun fs b => drawn_iff, ?_, ?_, ?_⟩
  · intro b
    rw [drawn_iff, drawn_iff, hperm]
    simp only [h.mem_iff]
  · intro b
    rw [drawn_iff, hcancel]
    simp only [List.mem_append, ← h.mem_iff, or_self]
  · rintro d s t hs rfl rfl ht hmemory hscreen
    obtain ⟨hpainted, hfirst⟩ := hs.step
    obtain ⟨-, hsecond⟩ := ht.step
    rw [hmemory, hscreen, hpainted] at hsecond
    rw [hfirst, hsecond, ← Stroke.exists_covers_iff,
      ← Stroke.hit_twice_iff s.machine.memory s.machine.screen d]
    have hflag (hit : Bool) : (if hit = true then (1 : Byte) else 0) = 1 ↔ hit = true := by
      cases hit <;> simp
    rw [hflag, hflag]
    rfl

/-- A session at `D015`, over the digits, that is about to make a stroke of five rows. -/
def brush (screen : Screen) (d : Stroke) : Session :=
  start
    { Machine.fresh 1 Source.silent with
      memory := (Machine.fresh 1 Source.silent).memory.write 0x200 [0xD0, 0x15]
      v := ((Bank.fill 0).set 0 d.column).set 1 d.row
      i := d.index
      screen } none

theorem aboutTo_brush (screen : Screen) {d : Stroke} (h : d.rows = 5) :
    (brush screen d).AboutTo d := by
  have hf : (brush screen d).machine.fetch = 0xD015 := by
    change (brush Screen.blank ⟨0, 0, 0, 0⟩).machine.fetch = 0xD015
    decide +kernel
  have hx : (brush screen d).machine.v.get 0 = d.column := Bank.get_set_ne _ _ (by decide)
  have hy : (brush screen d).machine.v.get 1 = d.row := Bank.get_set_self _ _ _
  refine ⟨?_, ?_, rfl, ?_, ?_⟩
  · rw [hf]
    decide
  · rw [hf, h]
    decide
  · rw [hf]
    exact hx
  · rw [hf]
    exact hy

def zeroAtCorner : Stroke := ⟨0, 0, 0, 5⟩

/-- The digit 1 across the corner of the screen, over the digit 0 that stands there. -/
def oneAcrossCorner : Stroke := ⟨5, 62, 30, 5⟩

theorem strokes_commute_and_cancel_across_corner :
    ∃ memory b,
      Drawn memory [zeroAtCorner, oneAcrossCorner] Screen.blank b ∧
      Drawn memory [oneAcrossCorner, zeroAtCorner] Screen.blank b ∧
      b.lit 0 0 = false ∧ b.lit 0 1 = true ∧ b.lit 30 0 = true ∧
      Drawn memory [zeroAtCorner, oneAcrossCorner, oneAcrossCorner, zeroAtCorner]
        Screen.blank Screen.blank ∧
      ∃ s t : Session, s.AboutTo oneAcrossCorner ∧ t.AboutTo oneAcrossCorner ∧
        t.machine.screen = (s.perform .step).2.machine.screen ∧
        ((s.perform .step).2.machine.v.get 0xF = 1 ∨
          (t.perform .step).2.machine.v.get 0xF = 1) := by
  let s := brush Screen.blank oneAcrossCorner
  let t := brush (s.perform .step).2.machine.screen oneAcrossCorner
  have hs : s.AboutTo oneAcrossCorner := aboutTo_brush _ rfl
  have ht : t.AboutTo oneAcrossCorner := aboutTo_brush _ rfl
  have hcan : ∀ d ∈ [zeroAtCorner, oneAcrossCorner], CanDraw s.machine.memory d := by
    simp only [List.forall_mem_cons]
    exact ⟨⟨brush Screen.blank zeroAtCorner, rfl, aboutTo_brush _ rfl⟩, ⟨s, rfl, hs⟩, nofun⟩
  obtain ⟨-, -, hdrawn, hswap, hback, htwice⟩ :=
    strokes_commute_and_cancel (List.Perm.swap oneAcrossCorner zeroAtCorner []) s.machine.memory
      Screen.blank
  have hb := (hdrawn _ _).mpr ⟨hcan, rfl⟩
  refine ⟨s.machine.memory, _, hb, (hswap _).mp hb, by decide +kernel, by decide +kernel,
    by decide +kernel, (hback _).mpr ⟨hcan, rfl⟩, s, t, hs, ht, rfl, ?_⟩
  exact (htwice oneAcrossCorner s t hs rfl rfl ht rfl rfl).mpr
    ⟨0, by decide, by decide +kernel⟩

end Session

end ChipEight
