import ChipEight.Machine.Execute

/-!
One instruction, and one tick of the timers.

A tick may start or end the tone. Whoever listens hears of it in the middle of the tick, so a
`Turn` shows the machine at that moment too: at the start of a tone the sound timer has not moved
yet.
-/

namespace ChipEight

structure Turn where
  /-- The tone that starts or ends in this turn. -/
  edge : Option Bool
  atEdge : Machine
  settled : Machine

def Turn.still (m : Machine) : Turn := ⟨none, m, m⟩

namespace Machine

def countDown (b : Byte) : Byte := if b = 0 then 0 else b - 1

theorem toNat_countDown (b : Byte) : (countDown b).toNat = b.toNat - 1 := by
  unfold countDown
  split
  · simp_all
  · have : b.toNat ≠ 0 := fun h => ‹¬b = 0› (BitVec.eq_of_toNat_eq h)
    rw [BitVec.toNat_sub_of_le (by rw [BitVec.le_def]; simp; omega)]
    rfl

def tick (m : Machine) : Turn :=
  let counted := { m with delay := countDown m.delay }
  if m.sound = 0 then
    if m.tone then
      let silent := { counted with tone := false }
      ⟨some false, silent, silent⟩
    else .still counted
  else
    let sounding := { counted with tone := true }
    let settled := { sounding with sound := countDown m.sound }
    ⟨if m.tone then none else some true, sounding, settled⟩

def count (m : Machine) : Turn :=
  let counted := { m with cycles := m.cycles + 1, sinceTick := m.sinceTick + 1 }
  if m.cyclesPerTick ≤ counted.sinceTick then { counted with sinceTick := 0 }.tick
  else .still counted

/-- Executes the instruction at the program counter. A word outside the instruction set is refused
before anything changes. -/
def step (m : Machine) : Except Fault Turn :=
  match Instruction.ofWord? m.fetch with
  | some instruction => .ok (m.execute instruction).count
  | none => .error (.unknownOpcode m.fetch.toNat m.pc.toNat)

end Machine

end ChipEight
