import ChipEight.Proofs.Numeric.Places
import ChipEight.Text.Hexadecimal

/-!
The fields of an instruction word tile it. A field of an integer of any size and sign is what a
shift and a mask in two's complement leave of it (`Field.Cut`), and that is what the word of its
lowest sixteen bits has in that place. So the fields repeat every 65536, and the four digits of a
word are all there is to it (`Word.digits_eq_iff`); they are also its text (`Word.hexWord_toNat`).
-/

namespace ChipEight

namespace Text

/-- The last digits of a number in base sixteen, the highest first. -/
def lastDigits : Nat → Nat → List Char
  | 0, _ => []
  | width + 1, n => lastDigits width (n / 16) ++ [(n % 16).digitChar]

theorem lastDigits_zero (width : Nat) : lastDigits width 0 = List.replicate width '0' := by
  induction width with
  | zero => rfl
  | succ width ih =>
      rw [lastDigits, Nat.zero_div, ih, List.replicate_succ']
      rfl

theorem padded_hexDigits (width n : Nat) (hn : n < 16 ^ (width + 1)) :
    List.replicate (width + 1 - (hexDigits n).length) '0' ++ hexDigits n =
      lastDigits (width + 1) n := by
  induction width generalizing n with
  | zero =>
      have hlt : n < 16 := hn
      rw [hexDigits, Nat.toDigits_of_lt_base hlt, lastDigits, Nat.mod_eq_of_lt hlt]
      rfl
  | succ width ih =>
      by_cases hlt : n < 16
      · rw [hexDigits, Nat.toDigits_of_lt_base hlt, lastDigits, Nat.mod_eq_of_lt hlt,
          Nat.div_eq_of_lt hlt, lastDigits_zero]
        rfl
      · have hquotient : n / 16 < 16 ^ (width + 1) := by
          rw [Nat.div_lt_iff_lt_mul (by decide), ← Nat.pow_succ]
          exact hn
        have hdigits : hexDigits n = hexDigits (n / 16) ++ [(n % 16).digitChar] :=
          Nat.toDigits_of_base_le (by decide) (by omega)
        rw [hdigits, lastDigits, ← ih (n / 16) hquotient, List.length_append,
          List.length_singleton, Nat.add_sub_add_right, List.append_assoc]

end Text

namespace Word

theorem toNat_address_eq_add (w : Word) :
    w.address.toNat = 256 * w.x.toNat + w.byte.toNat := by
  rw [toNat_address, toNat_x, toNat_byte]
  omega

theorem toNat_byte_eq_add (w : Word) : w.byte.toNat = 16 * w.y.toNat + w.nibble.toNat := by
  rw [toNat_byte, toNat_y, toNat_nibble]
  omega

theorem toNat_eq_add (w : Word) : w.toNat = 4096 * w.family.toNat + w.address.toNat := by
  rw [toNat_family, toNat_address]
  omega

theorem digits_eq_iff (v w : Word) :
    (v.family = w.family ∧ v.x = w.x ∧ v.y = w.y ∧ v.nibble = w.nibble) ↔ v = w := by
  constructor
  · rintro ⟨hfamily, hx, hy, hnibble⟩
    apply BitVec.eq_of_toNat_eq
    rw [toNat_eq_add v, toNat_eq_add w, toNat_address_eq_add v, toNat_address_eq_add w,
      toNat_byte_eq_add v, toNat_byte_eq_add w, hfamily, hx, hy, hnibble]
  · rintro rfl
    exact ⟨rfl, rfl, rfl, rfl⟩

/-- The four digits of a word. -/
def hex (w : Word) : String :=
  .ofList ([w.family, w.x, w.y, w.nibble].map fun digit => digit.toNat.digitChar)

theorem lastDigits_toNat (w : Word) : Text.lastDigits 4 w.toNat =
    [w.family, w.x, w.y, w.nibble].map fun digit => digit.toNat.digitChar := by
  have hfamily : w.toNat / 4096 % 16 = w.toNat / 4096 := Nat.mod_eq_of_lt (by omega)
  simp only [Text.lastDigits, List.map_cons, List.map_nil, List.nil_append, List.cons_append,
    Nat.div_div_eq_div_mul, Nat.reduceMul, toNat_family, toNat_x, toNat_y, toNat_nibble, hfamily]

theorem hexWord_toNat (w : Word) : Text.hexWord w.toNat = "0x" ++ w.hex := by
  have hpadded := Text.padded_hexDigits 3 w.toNat w.isLt
  have hsign : ¬ (w.toNat : Int) < 0 := by omega
  rw [lastDigits_toNat] at hpadded
  rw [Text.hexWord, if_neg hsign, Int.natAbs_natCast, hex, ← hpadded]
  rfl

end Word

namespace Field

section Masks

variable (n : Int) (shift width : Nat)

theorem ldiff_mask (m : Nat) :
    (2 ^ width - 1).ldiff m = 2 ^ width - (m % 2 ^ width + 1) := by
  have hm : m % 2 ^ width < 2 ^ width := Nat.mod_lt m (Nat.two_pow_pos width)
  apply Nat.eq_of_testBit_eq
  intro k
  rw [Nat.testBit_ldiff, Nat.testBit_two_pow_sub_one, Nat.testBit_two_pow_sub_succ hm,
    Nat.testBit_mod_two_pow]
  cases decide (k < width) with
  | false => rfl
  | true => rfl

/-- A mask of the lowest bits leaves the remainder, of a negative number too. -/
theorem land_mask : n.land (2 ^ width - 1 : Nat) = n % (2 ^ width : Nat) := by
  cases n with
  | ofNat m =>
      have hm : (Int.ofNat m).land (2 ^ width - 1 : Nat) = (m &&& (2 ^ width - 1) : Nat) := rfl
      rw [hm, Nat.and_two_pow_sub_one_eq_mod]
      rfl
  | negSucc m =>
      -- The bits of a negative number are those that the number behind it lacks.
      have hm : (Int.negSucc m).land (2 ^ width - 1 : Nat) = ((2 ^ width - 1).ldiff m : Nat) := rfl
      have hpos := Nat.two_pow_pos width
      have hlt : m % 2 ^ width < 2 ^ width := Nat.mod_lt m hpos
      rw [hm, ldiff_mask, Int.negSucc_emod _ (by omega)]
      omega

theorem toNat_cut :
    ((BitVec.ofInt width (n >>> shift)).toNat : Int) =
      (n >>> shift).land (2 ^ width - 1 : Nat) := by
  have hpos : (0 : Int) < (2 ^ width : Nat) := Int.natCast_pos.mpr (Nat.two_pow_pos width)
  rw [land_mask, BitVec.toNat_ofInt, Int.toNat_of_nonneg (Int.emod_nonneg _ (Int.ne_of_gt hpos))]

end Masks

/-- Every field is cut out of the number by a shift and a mask. -/
structure Cut (n : Int) : Prop where
  family : ((family n).toNat : Int) = (n >>> (12 : Nat)).land 0xF
  address : ((address n).toNat : Int) = n.land 0xFFF
  x : ((x n).toNat : Int) = (n >>> (8 : Nat)).land 0xF
  y : ((y n).toNat : Int) = (n >>> (4 : Nat)).land 0xF
  nibble : ((nibble n).toNat : Int) = n.land 0xF
  -- The immediate operand, and likewise any number cut to eight bits.
  byte : ((byte n).toNat : Int) = n.land 0xFF
  word : ((word n).toNat : Int) = n.land 0xFFFF

theorem cut (n : Int) : Cut n := by
  have hlow (width : Nat) :
      ((BitVec.ofInt width n).toNat : Int) = n.land (2 ^ width - 1 : Nat) := by
    have h := toNat_cut n 0 width
    rwa [Int.shiftRight_zero] at h
  exact ⟨toNat_cut n 12 4, hlow 12, toNat_cut n 8 4, toNat_cut n 4 4, hlow 4, hlow 8, hlow 16⟩

theorem word_eq_iff (m n : Int) : word m = word n ↔ m % 65536 = n % 65536 := by
  rw [← Numeric.toNat_word, ← Numeric.toNat_word, Int.natCast_inj, BitVec.toNat_inj]

theorem digits_eq_iff (m n : Int) :
    (family m = family n ∧ x m = x n ∧ y m = y n ∧ nibble m = nibble n) ↔
      m % 65536 = n % 65536 := by
  rw [family_eq, family_eq, x_eq, x_eq, y_eq, y_eq, nibble_eq, nibble_eq, Word.digits_eq_iff,
    word_eq_iff]

theorem fields_tile_word (n : Int) :
    Cut n ∧
    (address n).toNat = 256 * (x n).toNat + (byte n).toNat ∧
    (byte n).toNat = 16 * (y n).toNat + (nibble n).toNat ∧
    (word n).toNat = 4096 * (family n).toNat + (address n).toNat ∧
    ((word n).toNat : Int) = n % 65536 ∧
    ((address n).toNat < 4096 ∧ (x n).toNat < 16 ∧ (y n).toNat < 16 ∧ (nibble n).toNat < 16 ∧
      (byte n).toNat < 256 ∧ (family n).toNat < 16) ∧
    (∀ k, word (n + 65536 * k) = word n ∧ address (n + 65536 * k) = address n ∧
      x (n + 65536 * k) = x n ∧ y (n + 65536 * k) = y n ∧ nibble (n + 65536 * k) = nibble n ∧
      byte (n + 65536 * k) = byte n ∧ family (n + 65536 * k) = family n) ∧
    ∀ m, (family m = family n ∧ x m = x n ∧ y m = y n ∧ nibble m = nibble n) ↔
      m % 65536 = n % 65536 := by
  refine ⟨cut n, ?_, ?_, ?_, Numeric.toNat_word n, ?_, ?_, fun m => digits_eq_iff m n⟩
  · rw [address_eq, x_eq, byte_eq, Word.toNat_address_eq_add]
  · rw [byte_eq, y_eq, nibble_eq, Word.toNat_byte_eq_add]
  · rw [family_eq, address_eq, ← Word.toNat_eq_add]
  · exact ⟨(address n).isLt, (x n).isLt, (y n).isLt, (nibble n).isLt, (byte n).isLt,
      (family n).isLt⟩
  · intro k
    have hword : word (n + 65536 * k) = word n := (word_eq_iff _ _).mpr (by omega)
    refine ⟨hword, ?_⟩
    rw [address_eq, x_eq, y_eq, nibble_eq, byte_eq, family_eq, hword, ← address_eq, ← x_eq, ← y_eq,
      ← nibble_eq, ← byte_eq, ← family_eq]
    exact ⟨rfl, rfl, rfl, rfl, rfl, rfl⟩

end Field

end ChipEight
