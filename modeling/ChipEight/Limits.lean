import ChipEight.Fault

/-!
What the host can hold: whole numbers of one word, and tables of samples in its memory.
-/

namespace ChipEight

/-- The numbers of a signed word of 64 bits. -/
def FitsWord (n : Int) : Prop := -9223372036854775808 ≤ n ∧ n < 9223372036854775808

instance (n : Int) : Decidable (FitsWord n) := inferInstanceAs (Decidable (_ ∧ _))

namespace Table

/-- What a process can address, with 47 bits: no table is given more bytes. -/
def addressable : Nat := 1 <<< 47

/-- A length or a number of channels, which is never negative. -/
def dimension (n : Int) : Except Fault Nat :=
  if n < 0 then .error .negativeDimension else .ok n.toNat

/-- Refuses a table whose bytes a word cannot count or the memory cannot hold. A table with an empty
axis takes no memory, but its other axes are counted all the same. -/
def allocate (memory itemBytes : Nat) (shape : List Nat) : Except Fault Unit :=
  let counted := shape.foldl (fun bytes axis => bytes * max 1 axis) itemBytes
  if ¬ FitsWord counted then .error .tableTooLarge
  else if 0 ∉ shape ∧ memory < counted then .error (.outOfMemory counted shape)
  else .ok ()

end Table

end ChipEight
