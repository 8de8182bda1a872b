import ChipEight.Session

/-!
Which words are instructions. `Instruction.Written` gives the digits of each instruction and
`Instruction.Outside` those of the words that are none; a step refuses exactly the latter, with
nothing changed.
-/

namespace ChipEight

theorem Nibble.exists_eq (n : Nibble) :
    n = 0x0 ∨ n = 0x1 ∨ n = 0x2 ∨ n = 0x3 ∨ n = 0x4 ∨ n = 0x5 ∨ n = 0x6 ∨ n = 0x7 ∨
      n = 0x8 ∨ n = 0x9 ∨ n = 0xA ∨ n = 0xB ∨ n = 0xC ∨ n = 0xD ∨ n = 0xE ∨ n = 0xF := by
  revert n
  decide

def Arithmetic.code : Arithmetic → Nibble
  | .copy => 0x0
  | .or => 0x1
  | .and => 0x2
  | .xor => 0x3
  | .add => 0x4
  | .subtract => 0x5
  | .shiftRight => 0x6
  | .subtractFrom => 0x7
  | .shiftLeft => 0xE

theorem Arithmetic.ofNibble?_eq_some_iff (n : Nibble) (op : Arithmetic) :
    ofNibble? n = some op ↔ n = op.code := by
  revert n
  cases op <;> decide

theorem Arithmetic.ofNibble?_eq_none_iff (n : Nibble) :
    ofNibble? n = none ↔ 0x8 ≤ n.toNat ∧ n.toNat ≤ 0xD ∨ n.toNat = 0xF := by
  revert n
  decide

namespace Instruction

def Written (w : Word) : Instruction → Prop
  | .clear => w.family = 0x0 ∧ w.byte = 0xE0
  | .ret => w.family = 0x0 ∧ w.byte = 0xEE
  | .jump target => w.family = 0x1 ∧ w.address = target
  | .call target => w.family = 0x2 ∧ w.address = target
  | .skipIfByte x k => w.family = 0x3 ∧ w.x = x ∧ w.byte = k
  | .skipUnlessByte x k => w.family = 0x4 ∧ w.x = x ∧ w.byte = k
  | .skipIfEqual x y => w.family = 0x5 ∧ w.nibble = 0x0 ∧ w.x = x ∧ w.y = y
  | .setByte x k => w.family = 0x6 ∧ w.x = x ∧ w.byte = k
  | .addByte x k => w.family = 0x7 ∧ w.x = x ∧ w.byte = k
  | .arithmetic op x y => w.family = 0x8 ∧ w.nibble = op.code ∧ w.x = x ∧ w.y = y
  | .skipUnlessEqual x y => w.family = 0x9 ∧ w.x = x ∧ w.y = y
  | .setIndex target => w.family = 0xA ∧ w.address = target
  | .jumpOffset target => w.family = 0xB ∧ w.address = target
  | .random x k => w.family = 0xC ∧ w.x = x ∧ w.byte = k
  | .draw x y rows => w.family = 0xD ∧ w.x = x ∧ w.y = y ∧ w.nibble = rows
  | .skipIfDown x => w.family = 0xE ∧ w.byte = 0x9E ∧ w.x = x
  | .skipIfUp x => w.family = 0xE ∧ w.byte = 0xA1 ∧ w.x = x
  | .readDelay x => w.family = 0xF ∧ w.byte = 0x07 ∧ w.x = x
  | .awaitRelease x => w.family = 0xF ∧ w.byte = 0x0A ∧ w.x = x
  | .setDelay x => w.family = 0xF ∧ w.byte = 0x15 ∧ w.x = x
  | .setSound x => w.family = 0xF ∧ w.byte = 0x18 ∧ w.x = x
  | .addIndex x => w.family = 0xF ∧ w.byte = 0x1E ∧ w.x = x
  | .pointAtGlyph x => w.family = 0xF ∧ w.byte = 0x29 ∧ w.x = x
  | .storeDecimal x => w.family = 0xF ∧ w.byte = 0x33 ∧ w.x = x
  | .store x => w.family = 0xF ∧ w.byte = 0x55 ∧ w.x = x
  | .restore x => w.family = 0xF ∧ w.byte = 0x65 ∧ w.x = x

theorem written_of_system? {w : Word} {i : Instruction} (hf : w.family = 0x0)
    (h : system? w.byte = some i) : Written w i := by
  unfold system? at h
  split at h
  case h_3 => cases h
  all_goals
    next hb =>
      cases h
      exact ⟨hf, hb⟩

theorem written_of_arithmetic? {w : Word} {i : Instruction} (hf : w.family = 0x8)
    (h : ((Arithmetic.ofNibble? w.nibble).map fun op => arithmetic op w.x w.y) = some i) :
    Written w i := by
  obtain ⟨op, ho, rfl⟩ := Option.map_eq_some_iff.mp h
  exact ⟨hf, (Arithmetic.ofNibble?_eq_some_iff _ _).mp ho, rfl, rfl⟩

theorem written_of_key? {w : Word} {i : Instruction} (hf : w.family = 0xE)
    (h : key? w.x w.byte = some i) : Written w i := by
  unfold key? at h
  split at h
  case h_3 => cases h
  all_goals
    next hb =>
      cases h
      exact ⟨hf, hb, rfl⟩

theorem written_of_misc? {w : Word} {i : Instruction} (hf : w.family = 0xF)
    (h : misc? w.x w.byte = some i) : Written w i := by
  unfold misc? at h
  split at h
  case h_10 => cases h
  all_goals
    next hb =>
      cases h
      exact ⟨hf, hb, rfl⟩

theorem written_of_ofWord? {w : Word} {i : Instruction} (h : ofWord? w = some i) :
    Written w i := by
  rcases Nibble.exists_eq w.family with
    hf | hf | hf | hf | hf | hf | hf | hf | hf | hf | hf | hf | hf | hf | hf | hf
  all_goals simp only [ofWord?, hf] at h
  · exact written_of_system? hf h
  · cases h
    exact ⟨hf, rfl⟩
  · cases h
    exact ⟨hf, rfl⟩
  · cases h
    exact ⟨hf, rfl, rfl⟩
  · cases h
    exact ⟨hf, rfl, rfl⟩
  · obtain ⟨hn, rfl⟩ : w.nibble = 0x0 ∧ skipIfEqual w.x w.y = i := by simpa using h
    exact ⟨hf, hn, rfl, rfl⟩
  · cases h
    exact ⟨hf, rfl, rfl⟩
  · cases h
    exact ⟨hf, rfl, rfl⟩
  · exact written_of_arithmetic? hf h
  · cases h
    exact ⟨hf, rfl, rfl⟩
  · cases h
    exact ⟨hf, rfl⟩
  · cases h
    exact ⟨hf, rfl⟩
  · cases h
    exact ⟨hf, rfl, rfl⟩
  · cases h
    exact ⟨hf, rfl, rfl, rfl⟩
  · exact written_of_key? hf h
  · exact written_of_misc? hf h

theorem ofWord?_eq_some_iff (w : Word) (i : Instruction) : ofWord? w = some i ↔ Written w i := by
  refine ⟨written_of_ofWord?, ?_⟩
  intro h
  cases i <;> simp_all [Written, ofWord?, system?, key?, misc?, Arithmetic.ofNibble?_eq_some_iff]

instance (w : Word) (i : Instruction) : Decidable (Written w i) :=
  decidable_of_iff (ofWord? w = some i) (ofWord?_eq_some_iff w i)

/-- The words that are no instruction, by their digits. -/
def Outside (word : Nat) : Prop :=
  match word / 4096 with
  | 0x0 => word % 256 ≠ 0xE0 ∧ word % 256 ≠ 0xEE
  | 0x5 => word % 16 ≠ 0
  | 0x8 => 0x8 ≤ word % 16 ∧ word % 16 ≤ 0xD ∨ word % 16 = 0xF
  | 0xE => word % 256 ≠ 0x9E ∧ word % 256 ≠ 0xA1
  | 0xF => word % 256 ∉ [0x07, 0x0A, 0x15, 0x18, 0x1E, 0x29, 0x33, 0x55, 0x65]
  | _ => False

theorem system?_eq_none_iff (b : Byte) : system? b = none ↔ b.toNat ≠ 0xE0 ∧ b.toNat ≠ 0xEE := by
  unfold system?
  split <;> simp_all [← BitVec.toNat_inj]

theorem key?_eq_none_iff (x : Nibble) (b : Byte) :
    key? x b = none ↔ b.toNat ≠ 0x9E ∧ b.toNat ≠ 0xA1 := by
  unfold key?
  split <;> simp_all [← BitVec.toNat_inj]

theorem misc?_eq_none_iff (x : Nibble) (b : Byte) :
    misc? x b = none ↔ b.toNat ∉ [0x07, 0x0A, 0x15, 0x18, 0x1E, 0x29, 0x33, 0x55, 0x65] := by
  unfold misc?
  split <;> simp_all [← BitVec.toNat_inj]

theorem ofWord?_eq_none_iff (w : Word) : ofWord? w = none ↔ Outside w.toNat := by
  unfold Outside
  rw [← Word.toNat_family, ← Word.toNat_byte, ← Word.toNat_nibble]
  rcases Nibble.exists_eq w.family with
    h | h | h | h | h | h | h | h | h | h | h | h | h | h | h | h <;>
    simp [ofWord?, h, system?_eq_none_iff, Arithmetic.ofNibble?_eq_none_iff, key?_eq_none_iff,
      misc?_eq_none_iff, ← BitVec.toNat_inj]

end Instruction

/-- The word at an address and the next one, each taken modulo the size of the memory. -/
def Machine.wordAt (m : Machine) (address : Nat) : Nat :=
  256 * (m.read (address % 4096 : Nat)).toNat + (m.read ((address + 1) % 4096 : Nat)).toNat

theorem Machine.toNat_fetch (m : Machine) : m.fetch.toNat = m.wordAt m.pc.toNat := by
  have h0 : Field.address (m.pc.toNat % 4096 : Nat) = m.pc.address := by
    apply BitVec.eq_of_toNat_eq
    rw [Field.address, BitVec.toNat_ofInt, Word.toNat_address]
    omega
  have h1 : Field.address ((m.pc.toNat + 1) % 4096 : Nat) = m.pc.address + 1 := by
    apply BitVec.eq_of_toNat_eq
    rw [Field.address, BitVec.toNat_ofInt, BitVec.toNat_add, Word.toNat_address]
    simp
    omega
  rw [fetch, Word.toNat_ofBytes, wordAt, read, read, h0, h1]

theorem Machine.toNat_fetch_eq_add (m : Machine) :
    m.fetch.toNat = 256 * (m.read m.pc.toNat).toNat + (m.read (m.pc.toNat + 1)).toNat := by
  have h0 : m.read (m.pc.toNat % 4096 : Nat) = m.read m.pc.toNat := m.read_congr (by omega)
  have h1 : m.read ((m.pc.toNat + 1) % 4096 : Nat) = m.read (m.pc.toNat + 1) :=
    m.read_congr (by omega)
  rw [toNat_fetch, wordAt, h0, h1]

namespace Session

theorem settle_fault {s t : Session} {turn : Turn} {fault : Fault}
    (h : s.settle turn = (.error fault, t)) : ∃ message, fault = .listener message := by
  unfold settle at h
  split at h
  · split at h
    · simp at h
    · simp only [Prod.mk.injEq, Except.error.injEq] at h
      exact ⟨_, h.1.symm⟩
  · simp at h

theorem step_eq_unknownOpcode_iff (s t : Session) (opcode pc : Int) :
    s.step = (.error (.unknownOpcode opcode pc), t) ↔
      Instruction.Outside (s.machine.wordAt s.machine.pc.toNat) ∧
        opcode = s.machine.wordAt s.machine.pc.toNat ∧ pc = s.machine.pc.toNat ∧ t = s := by
  rw [← Machine.toNat_fetch, ← Instruction.ofWord?_eq_none_iff, step, Machine.step]
  cases h : Instruction.ofWord? s.machine.fetch with
  | none =>
      simp only [Prod.mk.injEq, Except.error.injEq, Fault.unknownOpcode.injEq, true_and]
      constructor
      · rintro ⟨⟨rfl, rfl⟩, rfl⟩
        exact ⟨rfl, rfl, rfl⟩
      · rintro ⟨rfl, rfl, rfl⟩
        exact ⟨⟨rfl, rfl⟩, rfl⟩
  | some i =>
      simp only [reduceCtorEq, false_and, iff_false]
      intro hs
      obtain ⟨message, hm⟩ := settle_fault hs
      cases hm

end Session

end ChipEight
