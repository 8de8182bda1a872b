import ChipEight.Screen

/-!
What a sprite byte does to a row of the screen, cell by cell. The cell at `column` meets the bit
that stands as far behind the left edge of the sprite as the cell does (`Screen.getMsbD_stamp`), and
drawing a byte comes to turning over one cell after another (`Screen.spread_range`).
-/

namespace ChipEight

namespace Screen

theorem toNat_ofNat_column {j : Nat} (hj : j < 64) : (BitVec.ofNat 6 j).toNat = j := by
  rw [BitVec.toNat_ofNat]
  exact Nat.mod_eq_of_lt hj

theorem row_ext {a b : BitVec 64}
    (h : ∀ column : BitVec 6, a.getMsbD column.toNat = b.getMsbD column.toNat) : a = b := by
  refine BitVec.eq_of_getMsbD_eq ?_
  intro j hj
  have hc := h (BitVec.ofNat 6 j)
  rwa [toNat_ofNat_column hj] at hc

theorem row_ne_zero_iff (a : BitVec 64) :
    (a != 0) = true ↔ ∃ column : BitVec 6, a.getMsbD column.toNat = true := by
  rw [bne_iff_ne]
  constructor
  · intro h
    refine Classical.byContradiction ?_
    intro hn
    refine h (row_ext ?_)
    intro column
    have hc : ¬ a.getMsbD column.toNat = true := fun hc => hn ⟨column, hc⟩
    simpa using hc
  · rintro ⟨column, hc⟩ rfl
    simp at hc

theorem getMsbD_stamp (bits : Byte) (column j : BitVec 6) :
    (stamp bits column).getMsbD j.toNat = bits.getMsbD (j - column).toNat := by
  have hi : ∀ i, (bits.setWidth 64 <<< 56).getMsbD i = bits.getMsbD i := by
    intro i
    simp
  have hj := j.isLt
  have hc := column.isLt
  have hd : (j - column).toNat = (64 - column.toNat + j.toNat) % 64 := BitVec.toNat_sub _ _
  rw [stamp, BitVec.getMsbD_rotateRight, hi, hi, Nat.mod_eq_of_lt hc]
  split
  · rw [show (64 + j.toNat - column.toNat) % 64 = (j - column).toNat by omega]
    simp [hj]
  · rw [show j.toNat - column.toNat = (j - column).toNat by omega]
    simp [hj]

/-- A row with the one cell lit. -/
def dot (column : BitVec 6) : BitVec 64 := BitVec.twoPow 64 (63 - column.toNat)

theorem getMsbD_dot (column : BitVec 6) {j : Nat} (hj : j < 64) :
    (dot column).getMsbD j = decide (j = column.toNat) := by
  have hc := column.isLt
  rw [dot, BitVec.getMsbD_eq_getLsbD, BitVec.getLsbD_twoPow, Bool.eq_iff_iff]
  simp only [Bool.and_eq_true, decide_eq_true_eq]
  omega

/-- The cells that the chosen bits of a byte turn over. -/
def spread (bits : Byte) (column : BitVec 6) : List Nat → BitVec 64
  | [] => 0
  | k :: ks =>
      (if bits.getMsbD k then dot (column + BitVec.ofNat 6 k) else 0) ^^^ spread bits column ks

theorem toNat_add_eq_iff (column j : BitVec 6) {k : Nat} (hk : k < 8) :
    j.toNat = (column + BitVec.ofNat 6 k).toNat ↔ (j - column).toNat = k := by
  have hj := j.isLt
  have hc := column.isLt
  rw [BitVec.toNat_add, BitVec.toNat_sub, BitVec.toNat_ofNat]
  omega

theorem getMsbD_spread (bits : Byte) (column j : BitVec 6) {ks : List Nat} (hn : ks.Nodup)
    (hk : ∀ k ∈ ks, k < 8) :
    (spread bits column ks).getMsbD j.toNat =
      (decide ((j - column).toNat ∈ ks) && bits.getMsbD (j - column).toNat) := by
  induction ks with
  | nil => simp [spread]
  | cons k ks ih =>
      obtain ⟨hm, hn⟩ := List.nodup_cons.mp hn
      have ih := ih hn fun k' hk' => hk k' (List.mem_cons_of_mem k hk')
      have ht : (if bits.getMsbD k then dot (column + BitVec.ofNat 6 k) else 0).getMsbD j.toNat =
          (decide ((j - column).toNat = k) && bits.getMsbD k) := by
        have hd := getMsbD_dot (column + BitVec.ofNat 6 k) j.isLt
        simp only [toNat_add_eq_iff column j (hk k List.mem_cons_self)] at hd
        split <;> simp_all
      rw [spread, BitVec.getMsbD_xor, ht, ih]
      generalize (j - column).toNat = i
      by_cases he : i = k
      · simp [he, hm]
      · simp [he]

theorem spread_range (bits : Byte) (column : BitVec 6) :
    spread bits column (List.range 8) = stamp bits column := by
  refine row_ext ?_
  intro j
  have hk : ∀ k ∈ List.range 8, k < 8 := fun k hk => List.mem_range.mp hk
  rw [getMsbD_spread bits column j List.nodup_range hk, getMsbD_stamp]
  generalize (j - column).toNat = i
  by_cases hi : i < 8
  · simp [hi]
  · simp [hi, BitVec.getMsbD_of_ge _ _ (Nat.le_of_not_lt hi)]

/-- Whether a chosen bit of a byte meets a lit cell. -/
def meets (line : BitVec 64) (bits : Byte) (column : BitVec 6) (ks : List Nat) : Bool :=
  ks.any fun k => bits.getMsbD k && line.getMsbD (column + BitVec.ofNat 6 k).toNat

theorem meets_range (line : BitVec 64) (bits : Byte) (column : BitVec 6) :
    meets line bits column (List.range 8) = (line &&& stamp bits column != 0) := by
  rw [Bool.eq_iff_iff, row_ne_zero_iff, meets, List.any_eq_true]
  simp only [BitVec.getMsbD_and, getMsbD_stamp, Bool.and_eq_true, List.mem_range]
  constructor
  · rintro ⟨k, hk, hb, hl⟩
    refine ⟨column + BitVec.ofNat 6 k, hl, ?_⟩
    rwa [(toNat_add_eq_iff column _ hk).mp rfl]
  · rintro ⟨j, hl, hb⟩
    have hk : (j - column).toNat < 8 := BitVec.lt_of_getMsbD hb
    refine ⟨(j - column).toNat, hk, hb, ?_⟩
    rwa [← (toNat_add_eq_iff column j hk).mpr rfl]

end Screen

end ChipEight
