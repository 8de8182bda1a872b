/-!
Bytes, words and the fields of an instruction word.

`Word` reads the fields of a sixteen-bit word and `Field` the same fields of an integer of any size
and sign, in two's complement; `Field.x_eq` and its companions say that the two agree.
-/

namespace ChipEight

abbrev Nibble := BitVec 4

abbrev Byte := BitVec 8

abbrev Address := BitVec 12

abbrev Word := BitVec 16

namespace Word

def family (w : Word) : Nibble := w.extractLsb' 12 4

def x (w : Word) : Nibble := w.extractLsb' 8 4

def y (w : Word) : Nibble := w.extractLsb' 4 4

def nibble (w : Word) : Nibble := w.setWidth 4

def byte (w : Word) : Byte := w.setWidth 8

def address (w : Word) : Address := w.setWidth 12

def ofBytes (high low : Byte) : Word := high ++ low

theorem toNat_ofBytes (high low : Byte) :
    (ofBytes high low).toNat = 256 * high.toNat + low.toNat := by
  have := low.isLt
  rw [ofBytes, BitVec.toNat_append, Nat.shiftLeft_eq, Nat.mul_comm high.toNat,
    ← Nat.two_pow_add_eq_or_of_lt this]

theorem toNat_family (w : Word) : w.family.toNat = w.toNat / 4096 := by
  have := w.isLt
  simp only [family, BitVec.extractLsb'_toNat, Nat.shiftRight_eq_div_pow]
  omega

theorem toNat_x (w : Word) : w.x.toNat = w.toNat / 256 % 16 := by
  simp [x, BitVec.extractLsb'_toNat, Nat.shiftRight_eq_div_pow]

theorem toNat_y (w : Word) : w.y.toNat = w.toNat / 16 % 16 := by
  simp [y, BitVec.extractLsb'_toNat, Nat.shiftRight_eq_div_pow]

theorem toNat_nibble (w : Word) : w.nibble.toNat = w.toNat % 16 := by simp [nibble]

theorem toNat_byte (w : Word) : w.byte.toNat = w.toNat % 256 := by simp [byte]

theorem toNat_address (w : Word) : w.address.toNat = w.toNat % 4096 := by simp [address]

end Word

namespace Field

def family (n : Int) : Nibble := BitVec.ofInt 4 (n >>> (12 : Nat))

def x (n : Int) : Nibble := BitVec.ofInt 4 (n >>> (8 : Nat))

def y (n : Int) : Nibble := BitVec.ofInt 4 (n >>> (4 : Nat))

def nibble (n : Int) : Nibble := BitVec.ofInt 4 n

def byte (n : Int) : Byte := BitVec.ofInt 8 n

def address (n : Int) : Address := BitVec.ofInt 12 n

def word (n : Int) : Word := BitVec.ofInt 16 n

theorem family_eq (n : Int) : family n = (word n).family := by
  apply BitVec.eq_of_toNat_eq
  simp only [family, Word.family, word, BitVec.extractLsb'_toNat, BitVec.toNat_ofInt,
    Int.shiftRight_eq_div_pow, Nat.shiftRight_eq_div_pow]
  omega

theorem x_eq (n : Int) : x n = (word n).x := by
  apply BitVec.eq_of_toNat_eq
  simp only [x, Word.x, word, BitVec.extractLsb'_toNat, BitVec.toNat_ofInt,
    Int.shiftRight_eq_div_pow, Nat.shiftRight_eq_div_pow]
  omega

theorem y_eq (n : Int) : y n = (word n).y := by
  apply BitVec.eq_of_toNat_eq
  simp only [y, Word.y, word, BitVec.extractLsb'_toNat, BitVec.toNat_ofInt,
    Int.shiftRight_eq_div_pow, Nat.shiftRight_eq_div_pow]
  omega

theorem nibble_eq (n : Int) : nibble n = (word n).nibble := by
  apply BitVec.eq_of_toNat_eq
  simp only [nibble, Word.nibble, word, BitVec.toNat_setWidth, BitVec.toNat_ofInt]
  omega

theorem byte_eq (n : Int) : byte n = (word n).byte := by
  apply BitVec.eq_of_toNat_eq
  simp only [byte, Word.byte, word, BitVec.toNat_setWidth, BitVec.toNat_ofInt]
  omega

theorem address_eq (n : Int) : address n = (word n).address := by
  apply BitVec.eq_of_toNat_eq
  simp only [address, Word.address, word, BitVec.toNat_setWidth, BitVec.toNat_ofInt]
  omega

theorem address_eq_address_iff (m n : Int) : address m = address n ↔ m % 4096 = n % 4096 := by
  rw [← BitVec.toNat_inj, address, address, BitVec.toNat_ofInt, BitVec.toNat_ofInt]
  omega

end Field

end ChipEight
