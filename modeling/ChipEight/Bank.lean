/-!
A bank holds one cell for every index of a given width, so an index always names a cell and
arithmetic on indices wraps. Two banks are equal when they agree at every index (`Bank.ext`), and a
cell reads back what was last written to it (`Bank.get_set`).
-/

namespace ChipEight

def Bank.size (width : Nat) : Nat := 1 <<< width

theorem Bank.size_eq (width : Nat) : Bank.size width = Nat.pow 2 width := Nat.one_shiftLeft width

theorem Bank.toNat_lt_size {width : Nat} (i : BitVec width) : i.toNat < Bank.size width := by
  rw [Bank.size_eq]
  exact i.isLt

structure Bank (width : Nat) (α : Type) where
  cells : Vector α (Bank.size width)
  deriving DecidableEq

namespace Bank

variable {width : Nat} {α : Type}

def fill (a : α) : Bank width α := ⟨Vector.replicate (size width) a⟩

def ofFn (f : BitVec width → α) : Bank width α := ⟨Vector.ofFn fun k => f (BitVec.ofNat width k)⟩

def get (b : Bank width α) (i : BitVec width) : α :=
  have := toNat_lt_size i
  b.cells[i.toNat]

def set (b : Bank width α) (i : BitVec width) (a : α) : Bank width α :=
  ⟨b.cells.set i.toNat a (toNat_lt_size i)⟩

def toList (b : Bank width α) : List α := b.cells.toList

@[simp] theorem get_fill (a : α) (i : BitVec width) : (fill a : Bank width α).get i = a := by
  simp [fill, get]

@[simp] theorem get_ofFn (f : BitVec width → α) (i : BitVec width) : (ofFn f).get i = f i := by
  simp [ofFn, get]

theorem get_set (b : Bank width α) (i j : BitVec width) (a : α) :
    (b.set i a).get j = if i = j then a else b.get j := by
  simp [get, set, Vector.getElem_set, BitVec.toNat_inj]

@[simp] theorem get_set_self (b : Bank width α) (i : BitVec width) (a : α) :
    (b.set i a).get i = a := by
  simp [get_set]

theorem get_set_ne (b : Bank width α) {i j : BitVec width} (a : α) (h : i ≠ j) :
    (b.set i a).get j = b.get j := by
  simp [get_set, h]

@[ext] theorem ext {b c : Bank width α} (h : ∀ i, b.get i = c.get i) : b = c := by
  cases b with | mk b => cases c with | mk c =>
  congr 1
  ext k hk
  have hk' : k < Nat.pow 2 width := by rwa [← size_eq]
  have := h (BitVec.ofNatLT k hk')
  simpa [get] using this

@[simp] theorem length_toList (b : Bank width α) : b.toList.length = size width := by
  simp [toList]

@[simp] theorem getElem?_toList (b : Bank width α) (i : BitVec width) :
    b.toList[i.toNat]? = some (b.get i) := by
  simp [toList, get, toNat_lt_size]

theorem toList_set (b : Bank width α) (i : BitVec width) (a : α) :
    (b.set i a).toList = b.toList.set i.toNat a :=
  Vector.toList_set (toNat_lt_size i)

@[simp] theorem toList_fill (a : α) :
    (fill a : Bank width α).toList = List.replicate (size width) a :=
  Vector.toList_replicate

@[simp] theorem set_get (b : Bank width α) (i : BitVec width) : b.set i (b.get i) = b := by
  ext j
  rw [get_set]
  split <;> simp_all

theorem set_set (b : Bank width α) (i : BitVec width) (a c : α) :
    (b.set i a).set i c = b.set i c := by
  ext j
  simp only [get_set]
  split <;> rfl

/-- A run of cells from `i` on, wrapping at the end of the bank. -/
def slice (b : Bank width α) (i : BitVec width) (n : Nat) : List α :=
  (List.range n).map fun k => b.get (i + BitVec.ofNat width k)

@[simp] theorem length_slice (b : Bank width α) (i : BitVec width) (n : Nat) :
    (b.slice i n).length = n := by
  simp [slice]

theorem slice_cons (b : Bank width α) (i : BitVec width) (n : Nat) :
    b.slice i (n + 1) = b.get i :: b.slice (i + 1) n := by
  have h0 : i + BitVec.ofNat width 0 = i := BitVec.add_zero i
  have hk : ∀ k, i + BitVec.ofNat width (k + 1) = i + 1 + BitVec.ofNat width k := by
    intro k
    rw [Nat.add_comm k, BitVec.ofNat_add, BitVec.add_assoc]
    rfl
  rw [slice, List.range_succ_eq_map, List.map_cons, List.map_map, h0]
  exact congrArg _ (List.map_congr_left fun k _ => congrArg b.get (hk k))

theorem slice_succ (b : Bank width α) (i : BitVec width) (n : Nat) :
    b.slice i (n + 1) = b.slice i n ++ [b.get (i + BitVec.ofNat width n)] := by
  simp [slice, List.range_succ]

/-- Writes a run of cells from `i` on, wrapping at the end of the bank. -/
def write (b : Bank width α) (i : BitVec width) : List α → Bank width α
  | [] => b
  | a :: as => (b.set i a).write (i + 1) as

@[simp] theorem write_nil (b : Bank width α) (i : BitVec width) : b.write i [] = b := rfl

theorem write_append (b : Bank width α) (i : BitVec width) (as cs : List α) :
    b.write i (as ++ cs) = (b.write i as).write (i + BitVec.ofNat width as.length) cs := by
  induction as generalizing b i with
  | nil => simp [write]
  | cons a as ih =>
      simp only [List.cons_append, write, ih, List.length_cons]
      rw [BitVec.add_assoc, Nat.add_comm as.length, BitVec.ofNat_add]
      rfl

theorem write_concat (b : Bank width α) (i : BitVec width) (as : List α) (a : α) :
    b.write i (as ++ [a]) = (b.write i as).set (i + BitVec.ofNat width as.length) a := by
  rw [write_append]
  rfl

theorem toNat_sub_succ {i j : BitVec width} (h : i ≠ j) :
    (j - (i + 1)).toNat + 1 = (j - i).toNat := by
  have hne : i.toNat ≠ j.toNat := fun e => h (BitVec.eq_of_toNat_eq e)
  have hi := i.isLt
  have hj := j.isLt
  cases width with
  | zero => omega
  | succ n =>
      have hp : 2 ≤ 2 ^ (n + 1) := by have := Nat.two_pow_pos n; omega
      have h1 : (1 : BitVec (n + 1)).toNat = 1 := by simp
      rw [BitVec.toNat_sub, BitVec.toNat_sub, BitVec.toNat_add, h1]
      generalize 2 ^ (n + 1) = m at *
      by_cases hl : i.toNat < j.toNat
      · rw [Nat.mod_eq_of_lt (show i.toNat + 1 < m by omega),
          show m - (i.toNat + 1) + j.toNat = (j.toNat - i.toNat - 1) + m by omega,
          show m - i.toNat + j.toNat = (j.toNat - i.toNat) + m by omega, Nat.add_mod_right,
          Nat.add_mod_right, Nat.mod_eq_of_lt (by omega), Nat.mod_eq_of_lt (by omega)]
        omega
      · by_cases hw : i.toNat + 1 = m
        · rw [hw, Nat.mod_self, Nat.sub_zero, Nat.add_mod_left,
            Nat.mod_eq_of_lt hj, Nat.mod_eq_of_lt (by omega)]
          omega
        · rw [Nat.mod_eq_of_lt (show i.toNat + 1 < m by omega), Nat.mod_eq_of_lt (by omega),
            Nat.mod_eq_of_lt (by omega)]
          omega

theorem toNat_sub_add_one (i : BitVec width) : (i - (i + 1)).toNat + 1 = size width := by
  have hm : i - (i + 1) = BitVec.allOnes width := by
    rw [BitVec.sub_eq_add_neg, BitVec.neg_add, BitVec.sub_eq_add_neg, ← BitVec.add_assoc,
      BitVec.add_right_neg, BitVec.zero_add]
    exact BitVec.neg_one_eq_allOnes
  rw [hm, BitVec.toNat_allOnes, size_eq]
  exact Nat.sub_add_cancel (Nat.two_pow_pos width)

/-- The last write to a cell counts; a run no longer than the bank writes each cell once. -/
theorem get_write (b : Bank width α) (i j : BitVec width) (as : List α)
    (h : as.length ≤ size width) :
    (b.write i as).get j = as[(j - i).toNat]?.getD (b.get j) := by
  induction as generalizing b i with
  | nil => simp
  | cons a as ih =>
      rw [write, ih _ _ (by simp at h; omega), get_set]
      by_cases hij : i = j
      · subst hij
        have hl : as.length ≤ (i - (i + 1)).toNat := by
          have := toNat_sub_add_one i
          simp at h
          omega
        rw [List.getElem?_eq_none hl]
        simp
      · rw [← toNat_sub_succ hij]
        simp [hij]

theorem toNat_sub_of_lt {i j : BitVec width} (h : j.toNat < i.toNat) :
    (j - i).toNat + i.toNat = size width + j.toNat := by
  have hi := toNat_lt_size i
  rw [size_eq] at *
  change _ < 2 ^ width at hi
  change _ = 2 ^ width + _
  rw [BitVec.toNat_sub, Nat.mod_eq_of_lt (by omega)]
  omega

/-- A run that ends within the bank replaces the cells from its first index on. -/
theorem toList_write (b : Bank width α) (i : BitVec width) (as : List α)
    (h : i.toNat + as.length ≤ size width) :
    (b.write i as).toList =
      b.toList.take i.toNat ++ as ++ b.toList.drop (i.toNat + as.length) := by
  have hi := toNat_lt_size i
  refine List.ext_getElem? ?_
  intro k
  by_cases hk : k < size width
  · have hj : (BitVec.ofNat width k).toNat = k := by
      rw [BitVec.toNat_ofNat]
      exact Nat.mod_eq_of_lt (by rwa [size_eq] at hk)
    generalize BitVec.ofNat width k = j at hj
    subst hj
    rw [getElem?_toList, get_write b i j as (by omega), List.append_assoc,
      List.getElem?_append, List.getElem?_append, List.length_take, length_toList,
      Nat.min_eq_left (Nat.le_of_lt hi)]
    by_cases hl : j.toNat < i.toNat
    · have hs := toNat_sub_of_lt hl
      rw [if_pos hl, List.getElem?_take_of_lt hl, getElem?_toList,
        List.getElem?_eq_none (show as.length ≤ (j - i).toNat by omega)]
      rfl
    · have hs : (j - i).toNat = j.toNat - i.toNat := BitVec.toNat_sub_of_le (by
        rw [BitVec.le_def]
        omega)
      rw [if_neg hl, hs]
      by_cases ha : j.toNat - i.toNat < as.length
      · rw [if_pos ha, List.getElem?_eq_getElem ha]
        rfl
      · rw [if_neg ha, List.getElem?_eq_none (Nat.le_of_not_lt ha), List.getElem?_drop,
          show i.toNat + as.length + (j.toNat - i.toNat - as.length) = j.toNat by omega,
          getElem?_toList]
        rfl
  · rw [List.getElem?_eq_none (by rw [length_toList]; omega),
      List.getElem?_eq_none (by simp; omega)]

end Bank

end ChipEight
