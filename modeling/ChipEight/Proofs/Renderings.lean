import ChipEight.Picture
import ChipEight.Proofs.Sprites

/-!
A picture as text and in two colours. Either rendering puts one of two marks for each cell
(`Picture.lines_text`, `Picture.get_coloured`), by row in the text and by column in the colours,
and different marks give the lit cells back (`Picture.mark_eq_iff`). So the text of a screen shows
its cells (`Screen.shownBy_text`), and its colours give the screen back (`Screen.screen_pixels`).
-/

namespace ChipEight

def Text.lines (text : String) : List String := (text.split '\n').toList.map (·.copy)

namespace Colour

/-- The ways to give a colour in whole numbers: its three components, or the one they share. -/
inductive Given : Colour → List Int → Prop where
  | all (b : Byte) : Given ⟨b, b, b⟩ [(b.toNat : Int)]
  | each (red green blue : Byte) :
      Given ⟨red, green, blue⟩ [(red.toNat : Int), (green.toNat : Int), (blue.toNat : Int)]

theorem component_toNat (b : Byte) : component b.toNat = .ok b := by
  have hb := b.isLt
  have hword : FitsWord (b.toNat : Int) := ⟨by omega, by omega⟩
  rw [component, if_neg (not_not_intro hword), if_pos ⟨by omega, by omega⟩, BitVec.ofInt_natCast,
    BitVec.ofNat_toNat, BitVec.setWidth_eq]

theorem Given.ofInts_eq {c : Colour} {components : List Int} (h : c.Given components)
    (miscounted : Fault) : ofInts components miscounted = .ok c := by
  cases h with
  | all b =>
      simp only [ofInts, List.mapM_cons, List.mapM_nil, component_toNat]
      rfl
  | each red green blue =>
      simp only [ofInts, List.mapM_cons, List.mapM_nil, component_toNat]
      rfl

end Colour

namespace Picture

variable {height width : Nat}

def mark {α : Type} (lighted dark : α) (cell : Byte) : α := if cell != 0 then lighted else dark

theorem mark_cases {α : Type} (lighted dark : α) (cell : Byte) :
    mark lighted dark cell = lighted ∨ mark lighted dark cell = dark := by
  rw [mark]
  split
  · exact .inl rfl
  · exact .inr rfl

theorem mark_eq_iff {α : Type} {lighted dark : α} (h : lighted ≠ dark) (cell : Byte) :
    mark lighted dark cell = lighted ↔ cell ≠ 0 := by
  rw [mark, ← bne_iff_ne]
  split
  · next hc => exact iff_of_true rfl hc
  · next hc => exact iff_of_false (Ne.symm h) hc

theorem mark_zero {α : Type} (lighted dark : α) : mark lighted dark 0 = dark := rfl

theorem mark_beq {α : Type} [DecidableEq α] {lighted dark : α} (h : lighted ≠ dark) (cell : Byte) :
    (mark lighted dark cell == lighted) = (cell != 0) := by
  rw [Bool.eq_iff_iff, beq_iff_eq, bne_iff_ne, mark_eq_iff h]

/-- The lit cells, row by row. -/
def pattern (p : Picture height width) : List (List Bool) :=
  p.toList.map fun row => row.toList.map (· != 0)

theorem getElem?_map_toList {α β : Type} {n : Nat} (v : Vector α n) (f : α → β) (i : Fin n) :
    (v.toList.map f)[i.val]? = some (f (v.get i)) := by
  rw [List.getElem?_map, Vector.getElem?_toList, Vector.getElem?_eq_getElem i.isLt]
  rfl

/-! ### Text -/

section Lines

variable (p : Picture height width) {on off : Char}

def patternOfText (on : Char) (text : String) : List (List Bool) :=
  (Text.lines text).map fun line => line.toList.map (· == on)

theorem line_eq_ofList (on off : Char) (cells : List Byte) :
    line (.singleton on) (.singleton off) cells = .ofList (cells.map (mark on off)) := by
  apply String.ext
  rw [line, String.toList_join, String.toList_ofList]
  induction cells with
  | nil => rfl
  | cons cell cells ih =>
      rw [List.map_cons, List.map_cons, List.flatMap_cons, ih, mark]
      split
      · rw [String.toList_singleton, List.singleton_append]
      · rw [String.toList_singleton, List.singleton_append]

/-- A picture without rows would have one empty line, as has a row without cells. -/
theorem lines_text (hheight : 0 < height) (hon : on ≠ '\n') (hoff : off ≠ '\n') :
    Text.lines (p.text (.singleton on) (.singleton off)) =
      p.toList.map fun row => .ofList (row.toList.map (mark on off)) := by
  have hlines : (p.toList.map fun row => line (.singleton on) (.singleton off) row.toList) =
      p.toList.map fun row => .ofList (row.toList.map (mark on off)) :=
    List.map_congr_left fun row _ => line_eq_ofList on off row.toList
  rw [Text.lines, text, hlines, show "\n" = String.singleton '\n' from rfl,
    String.toList_split_intercalate, if_neg]
  · intro hnone
    have hlength := congrArg List.length hnone
    rw [List.length_map, Vector.length_toList] at hlength
    exact absurd hlength (Nat.ne_of_gt hheight)
  · intro line hline hnewline
    obtain ⟨row, -, rfl⟩ := List.mem_map.mp hline
    rw [String.toList_ofList] at hnewline
    obtain ⟨cell, -, hcell⟩ := List.mem_map.mp hnewline
    rcases mark_cases on off cell with h | h
    · exact hon (h.symm.trans hcell)
    · exact hoff (h.symm.trans hcell)

theorem patternOfText_text (hheight : 0 < height) (hon : on ≠ '\n') (hoff : off ≠ '\n')
    (h : on ≠ off) :
    patternOfText on (p.text (.singleton on) (.singleton off)) = p.pattern := by
  rw [patternOfText, p.lines_text hheight hon hoff, pattern, List.map_map]
  refine List.map_congr_left fun row _ => ?_
  rw [Function.comp_apply, String.toList_ofList, List.map_map]
  exact List.map_congr_left fun cell _ => mark_beq h cell

end Lines

/-! ### Colours -/

section Colours

variable (p : Picture height width) {lighted dark : Colour}

theorem painted_eq {fg bg : List Int} (hfg : lighted.Given fg) (hbg : dark.Given bg) :
    p.painted fg bg = .ok (p.coloured lighted dark) := by
  rw [painted, hfg.ofInts_eq, hbg.ofInts_eq]
  rfl

theorem get_coloured (lighted dark : Colour) (row : Fin height) (column : Fin width) :
    ((p.coloured lighted dark).get column).get row =
      mark lighted dark ((p.get row).get column) := by
  change (p.coloured lighted dark)[column.val][row.val] = mark lighted dark p[row.val][column.val]
  simp [coloured, lit, mark]

theorem ofFn_get {α β : Type} {n : Nat} (v : Vector α n) (f : α → β) :
    List.ofFn (fun i => f (v.get i)) = v.toList.map f := by
  apply List.ext_getElem
  · rw [List.length_ofFn, List.length_map, Vector.length_toList]
  · intro k _ _
    rw [List.getElem_ofFn, List.getElem_map, Vector.getElem_toList]
    rfl

theorem patternOfColours_coloured (h : lighted ≠ dark) :
    patternOfColours lighted (p.coloured lighted dark) = p.pattern := by
  have hrow (row : Fin height) :
      (List.ofFn fun column => ((p.coloured lighted dark).get column).get row == lighted) =
        (p.get row).toList.map (· != 0) := by
    simp only [get_coloured, mark_beq h]
    exact ofFn_get (p.get row) (· != 0)
  rw [patternOfColours, funext hrow]
  exact ofFn_get p fun row => row.toList.map (· != 0)

end Colours

theorem renderings_agree (p : Picture height width) {on off : Char} {lighted dark : Colour}
    {fg bg : List Int} (hheight : 0 < height) (hon : on ≠ '\n') (hoff : off ≠ '\n')
    (hmarks : on ≠ off) (hcolours : lighted ≠ dark) (hfg : lighted.Given fg)
    (hbg : dark.Given bg) :
    let text := p.text (.singleton on) (.singleton off)
    ∃ colours, p.painted fg bg = .ok colours ∧
      (Text.lines text).length = height ∧ (∀ line ∈ Text.lines text, line.length = width) ∧
      (∀ (row : Fin height) (column : Fin width), ∃ line c,
        (Text.lines text)[row.val]? = some line ∧ line.toList[column.val]? = some c ∧
        (c = on ↔ (p.get row).get column ≠ 0) ∧
        ((colours.get column).get row = lighted ↔ (p.get row).get column ≠ 0) ∧
        ((p.get row).get column = 0 → c = off ∧ (colours.get column).get row = dark)) ∧
      patternOfText on text = p.pattern ∧ patternOfColours lighted colours = p.pattern := by
  intro text
  have hlines := p.lines_text hheight hon hoff
  refine ⟨p.coloured lighted dark, p.painted_eq hfg hbg, ?_, ?_, ?_,
    p.patternOfText_text hheight hon hoff hmarks, p.patternOfColours_coloured hcolours⟩
  · rw [hlines, List.length_map, Vector.length_toList]
  · intro line hline
    rw [hlines] at hline
    obtain ⟨row, -, rfl⟩ := List.mem_map.mp hline
    rw [String.length_ofList, List.length_map, Vector.length_toList]
  · intro row column
    rw [hlines, get_coloured]
    refine ⟨.ofList ((p.get row).toList.map (mark on off)), mark on off ((p.get row).get column),
      ?_, ?_, mark_eq_iff hmarks _, mark_eq_iff hcolours _, ?_⟩
    · exact getElem?_map_toList p _ row
    · rw [String.toList_ofList]
      exact getElem?_map_toList (p.get row) _ column
    · intro hdark
      rw [hdark]
      exact ⟨mark_zero on off, mark_zero lighted dark⟩

/-- Two rows of three cells, of which three are lit, two of them by other numbers than one. -/
def oblong : Picture 2 3 := #v[#v[0, 7, 255], #v[1, 0, 0]]

theorem renderings_agree_on_oblong :
    ∃ colours, oblong.painted [200] [0, 10, 20] = .ok colours ∧
      (Text.lines (oblong.text "X" " ")).length = 2 ∧
      (∃ line, (Text.lines (oblong.text "X" " "))[0]? = some line ∧ line.toList[2]? = some 'X') ∧
      (colours.get 2).get 0 = ⟨200, 200, 200⟩ ∧ (colours.get 0).get 0 = ⟨0, 10, 20⟩ ∧
      patternOfText 'X' (oblong.text "X" " ") = [[false, true, true], [true, false, false]] := by
  obtain ⟨colours, hpainted, hlength, -, hcells, hpattern, -⟩ :=
    renderings_agree oblong (by decide) (show 'X' ≠ '\n' by decide) (show ' ' ≠ '\n' by decide)
      (by decide) (show (⟨200, 200, 200⟩ : Colour) ≠ ⟨0, 10, 20⟩ by decide) (.all 200)
      (.each 0 10 20)
  obtain ⟨line, c, hline, hc, hon, hlighted, -⟩ := hcells 0 2
  obtain ⟨_, _, -, -, -, -, hdark⟩ := hcells 0 0
  have hlit : (oblong.get 0).get 2 ≠ 0 := by decide
  exact ⟨colours, hpainted, hlength, ⟨line, hline, hc.trans (congrArg some (hon.mpr hlit))⟩,
    hlighted.mpr hlit, (hdark rfl).2, hpattern⟩

/-! ### Screens -/

section Screens

variable (s : Screen)

theorem get_ofScreen (row : Fin Screen.height) (column : Fin Screen.width) :
    ((ofScreen s).get row).get column =
      if s.lit (BitVec.ofNat 5 row) (BitVec.ofNat 6 column) then 1 else 0 := by
  change (ofScreen s)[row.val][column.val] = _
  simp [ofScreen]

theorem map_ofScreen {α : Type} (f : Byte → α) :
    ((ofScreen s).toList.map fun row => row.toList.map f) =
      List.ofFn fun row : Fin 32 => List.ofFn fun column : Fin 64 =>
        f (if s.lit (BitVec.ofNat 5 row) (BitVec.ofNat 6 column) then 1 else 0) := by
  have hrow (row : Fin Screen.height) :
      ((ofScreen s).get row).toList.map f = List.ofFn fun column : Fin 64 =>
        f (if s.lit (BitVec.ofNat 5 row) (BitVec.ofNat 6 column) then 1 else 0) := by
    rw [← ofFn_get]
    exact congrArg List.ofFn (funext fun column => congrArg f (get_ofScreen s row column))
  rw [← ofFn_get]
  exact congrArg List.ofFn (funext hrow)

/-- The characters that stand for a screen, row by row. -/
def characters : List (List Char) :=
  List.ofFn fun row : Fin 32 => List.ofFn fun column : Fin 64 =>
    if s.lit (BitVec.ofNat 5 row) (BitVec.ofNat 6 column) then '#' else '.'

theorem characters_eq_map :
    characters s = (ofScreen s).toList.map fun row => row.toList.map (mark '#' '.') := by
  have hmark (b : Bool) : mark '#' '.' (if b then 1 else 0) = if b then '#' else '.' := by
    cases b <;> rfl
  rw [map_ofScreen]
  simp only [hmark, characters]

theorem pattern_ofScreen : (ofScreen s).pattern =
    List.ofFn fun row : Fin 32 => List.ofFn fun column : Fin 64 =>
      s.lit (BitVec.ofNat 5 row) (BitVec.ofNat 6 column) := by
  have hlit (b : Bool) : ((if b then 1 else 0 : Byte) != 0) = b := by
    cases b <;> rfl
  rw [pattern, map_ofScreen]
  simp only [hlit]

theorem text_ofScreen : s.text = "\n".intercalate ((characters s).map String.ofList) := by
  rw [Screen.text, text, characters_eq_map, List.map_map]
  exact congrArg _ (List.map_congr_left fun row _ => line_eq_ofList '#' '.' row.toList)

theorem lines_ofScreen : Text.lines s.text = (characters s).map String.ofList := by
  have hmarks : s.text = (ofScreen s).text (.singleton '#') (.singleton '.') := rfl
  rw [hmarks, (ofScreen s).lines_text (by decide) (by decide) (by decide), characters_eq_map,
    List.map_map]
  rfl

end Screens

end Picture

namespace Screen

variable (s : Screen)

/-- The text that shows a screen: a line for each row, with a mark for each cell of it. -/
structure ShownBy (text : String) : Prop where
  rows : (Text.lines text).length = 32
  columns : ∀ line ∈ Text.lines text, line.length = 64
  cells : ∀ (row : BitVec 5) (column : BitVec 6), ∃ line,
    (Text.lines text)[row.toNat]? = some line ∧
      line.toList[column.toNat]? = some (if s.lit row column then '#' else '.')

theorem shownBy_text : s.ShownBy s.text := by
  have hlines := Picture.lines_ofScreen s
  constructor
  · rw [hlines, List.length_map]
    exact List.length_ofFn
  · intro line hline
    rw [hlines] at hline
    obtain ⟨cells, hcells, rfl⟩ := List.mem_map.mp hline
    obtain ⟨row, rfl⟩ := List.mem_ofFn.mp hcells
    rw [String.length_ofList]
    exact List.length_ofFn
  · intro row column
    let cells := List.ofFn fun column : Fin 64 =>
      if s.lit (BitVec.ofNat 5 row.toNat) (BitVec.ofNat 6 column) then '#' else '.'
    have hcells : (Picture.characters s)[row.toNat]? = some cells := by
      rw [Picture.characters, List.getElem?_ofFn, dif_pos row.isLt]
    refine ⟨.ofList cells, ?_, ?_⟩
    · rw [hlines, List.getElem?_map, hcells]
      rfl
    · rw [String.toList_ofList, List.getElem?_ofFn, dif_pos column.isLt]
      simp only [BitVec.ofNat_toNat, BitVec.setWidth_eq]

theorem ofPattern_pattern : ofPattern (Picture.ofScreen s).pattern = s := by
  refine Bank.ext fun row => row_ext fun column => ?_
  rw [ofPattern, Bank.get_ofFn, Picture.pattern_ofScreen, List.getD_eq_getElem?_getD,
    List.getElem?_ofFn, dif_pos row.isLt, Option.getD_some, BitVec.getMsbD_setWidth,
    BitVec.getMsbD_ofBoolListBE, List.length_ofFn, Nat.add_sub_cancel,
    List.getD_eq_getElem?_getD, List.getElem?_ofFn, dif_pos column.isLt]
  simp [lit]

theorem screen_pixels : s.pixels.screen = s := by
  rw [Pixels.screen, pixels, Picture.patternOfColours_coloured _ (by decide), ofPattern_pattern]

end Screen

end ChipEight
