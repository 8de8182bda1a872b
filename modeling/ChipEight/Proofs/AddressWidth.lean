import ChipEight.Proofs.Runs

/-!
Addresses of twelve bits. `Machine.narrow` clears the high bits of the program counter, of the index
and of every saved address. What a machine does next depends on the low bits alone, and so do the
low bits afterwards (`Session.perform_narrow`), so machines that differ in the high bits only
(`Machine.Congruent`) cannot be told apart.
-/

namespace ChipEight

namespace Word

def low (w : Word) : Word := w.address.setWidth 16

theorem toNat_low (w : Word) : w.low.toNat = w.toNat % 4096 := by
  rw [low, BitVec.toNat_setWidth, toNat_address]
  omega

theorem low_eq_low_iff (v w : Word) : v.low = w.low ↔ v.toNat % 4096 = w.toNat % 4096 := by
  rw [← BitVec.toNat_inj, toNat_low, toNat_low]

@[simp] theorem low_low (w : Word) : w.low.low = w.low := by
  rw [low_eq_low_iff, toNat_low, Nat.mod_mod]

@[simp] theorem address_low (w : Word) : w.low.address = w.address := by
  apply BitVec.eq_of_toNat_eq
  rw [toNat_address, toNat_address, toNat_low, Nat.mod_mod]

theorem low_low_add (v w : Word) : (v.low + w).low = (v + w).low := by
  rw [low_eq_low_iff, BitVec.toNat_add, BitVec.toNat_add, toNat_low]
  omega

end Word

namespace CallStack

def narrow (k : CallStack) : CallStack := ⟨Bank.ofFn fun n => (k.slots.get n).low, k.top⟩

theorem top_narrow (k : CallStack) : k.narrow.top = k.top := by rw [narrow]

theorem get_narrow (k : CallStack) (n : Nibble) : k.narrow.slots.get n = (k.slots.get n).low := by
  rw [narrow, Bank.get_ofFn]

theorem narrow_eq_narrow_iff (k l : CallStack) :
    k.narrow = l.narrow ↔
      (∀ n, (k.slots.get n).toNat % 4096 = (l.slots.get n).toNat % 4096) ∧ k.top = l.top := by
  constructor
  · intro h
    have ht : k.top = l.top := by rw [← top_narrow k, h, top_narrow]
    refine ⟨?_, ht⟩
    intro n
    rw [← Word.low_eq_low_iff, ← get_narrow, ← get_narrow, h]
  · rintro ⟨hs, ht⟩
    rw [narrow, narrow, ht, CallStack.mk.injEq]
    refine ⟨?_, rfl⟩
    ext1 n
    rw [Bank.get_ofFn, Bank.get_ofFn, Word.low_eq_low_iff]
    exact hs n

@[simp] theorem narrow_narrow (k : CallStack) : k.narrow.narrow = k.narrow := by
  rw [narrow_eq_narrow_iff]
  refine ⟨?_, top_narrow k⟩
  intro n
  rw [get_narrow, Word.toNat_low, Nat.mod_mod]

theorem push_narrow (k : CallStack) {v w : Word} (h : v.low = w.low) :
    (k.narrow.push v).narrow = (k.push w).narrow := by
  rw [narrow_eq_narrow_iff, push, push, top_narrow]
  refine ⟨?_, rfl⟩
  intro n
  rw [Bank.get_set, Bank.get_set, get_narrow]
  split
  · exact (Word.low_eq_low_iff v w).mp h
  · rw [Word.toNat_low, Nat.mod_mod]

theorem pop_narrow (k : CallStack) : k.narrow.pop = (k.pop.1.low, k.pop.2.narrow) := by
  rw [pop, get_narrow, top_narrow]
  rfl

end CallStack

namespace Machine

def narrow (m : Machine) : Machine :=
  { m with pc := m.pc.low, i := m.i.low, stack := m.stack.narrow }

@[simp] theorem narrow_narrow (m : Machine) : m.narrow.narrow = m.narrow := by
  simp only [narrow, Word.low_low, CallStack.narrow_narrow]

theorem fetch_narrow (m : Machine) : m.narrow.fetch = m.fetch := by
  simp only [fetch, narrow, Word.address_low]

theorem address_narrow (m : Machine) : m.narrow.address = m.address := Word.address_low m.i

theorem advance_narrow (m : Machine) : m.narrow.advance.narrow = m.advance.narrow := by
  simp only [advance, narrow, Word.low_low_add, Word.low_low, CallStack.narrow_narrow]

theorem skipIf_narrow (m : Machine) (b : Bool) :
    (m.narrow.skipIf b).narrow = (m.skipIf b).narrow := by
  simp only [skipIf, narrow, Word.low_low_add, Word.low_low, CallStack.narrow_narrow]

theorem arithmetic_narrow (m : Machine) (op : Arithmetic) (x y : Nibble) :
    m.narrow.arithmetic op x y = (m.arithmetic op x y).narrow := by
  cases op <;> rfl

theorem draw_narrow (m : Machine) (x y rows : Nibble) :
    m.narrow.draw x y rows = (m.draw x y rows).narrow := by
  simp only [draw, address_narrow]
  rfl

theorem awaitRelease_narrow (m : Machine) (x : Nibble) :
    (m.narrow.awaitRelease x).narrow = (m.awaitRelease x).narrow := by
  cases h : m.keypad.released with
  | none =>
      have hn : m.narrow.keypad.released = none := h
      simp only [awaitRelease, h, hn, narrow_narrow]
  | some key =>
      have hn : m.narrow.keypad.released = some key := h
      simp only [awaitRelease, h, hn]
      simp only [narrow, Word.low_low_add, Word.low_low, CallStack.narrow_narrow]

theorem execute_narrow (m : Machine) (i : Instruction) :
    (m.narrow.execute i).narrow = (m.execute i).narrow := by
  cases i with
  | clear => exact advance_narrow { m with screen := Screen.blank }
  | ret =>
      simp only [execute, narrow, CallStack.pop_narrow, Word.low_low_add, Word.low_low,
        CallStack.narrow_narrow]
  | jump target => simp only [execute, narrow, Word.low_low, CallStack.narrow_narrow]
  | call target =>
      simp only [execute, narrow, Word.low_low, CallStack.push_narrow m.stack (Word.low_low m.pc)]
  | skipIfByte x k => exact skipIf_narrow m _
  | skipUnlessByte x k => exact skipIf_narrow m _
  | skipIfEqual x y => exact skipIf_narrow m _
  | setByte x k => exact advance_narrow (m.setRegister x k)
  | addByte x k => exact advance_narrow (m.setRegister x (m.v.get x + k))
  | arithmetic op x y =>
      rw [execute, arithmetic_narrow]
      exact advance_narrow (m.arithmetic op x y)
  | skipUnlessEqual x y => exact skipIf_narrow m _
  | setIndex target =>
      simp only [execute, advance, narrow, Word.low_low_add, CallStack.narrow_narrow]
  | jumpOffset target => simp only [execute, narrow, Word.low_low, CallStack.narrow_narrow]
  | random x k => exact advance_narrow (m.random x k)
  | draw x y rows =>
      rw [execute, draw_narrow]
      exact advance_narrow (m.draw x y rows)
  | skipIfDown x => exact skipIf_narrow m _
  | skipIfUp x => exact skipIf_narrow m _
  | readDelay x => exact advance_narrow (m.setRegister x m.delay)
  | awaitRelease x => exact awaitRelease_narrow m x
  | setDelay x => exact advance_narrow { m with delay := m.v.get x }
  | setSound x => exact advance_narrow { m with sound := m.v.get x }
  | addIndex x =>
      simp only [execute, advance, narrow, Word.low_low_add, CallStack.narrow_narrow]
  | pointAtGlyph x =>
      simp only [execute, advance, narrow, Word.low_low_add, CallStack.narrow_narrow]
  | storeDecimal x =>
      rw [execute, address_narrow]
      exact advance_narrow { m with memory := m.memory.write m.address (decimal (m.v.get x)) }
  | store x =>
      rw [execute, address_narrow]
      exact advance_narrow { m with memory := m.memory.write m.address (m.registersUpTo x) }
  | restore x =>
      rw [execute, address_narrow]
      exact advance_narrow
        { m with v := m.v.write 0 (m.memory.slice m.address (x.toNat + 1)) }

end Machine

def Turn.narrow (t : Turn) : Turn := ⟨t.edge, t.atEdge.narrow, t.settled.narrow⟩

namespace Machine

theorem untimed_narrow : Untimed narrow := ⟨fun _ => rfl, fun _ _ => rfl⟩

theorem tick_narrow (m : Machine) : m.narrow.tick = m.tick.narrow := untimed_narrow.tick m

theorem count_narrow (m : Machine) : m.narrow.count = m.count.narrow := untimed_narrow.count m

theorem push_narrow (m : Machine) (value : Int) :
    (m.narrow.push value).narrow = (m.push value).narrow := by
  simp only [push, narrow, CallStack.push_narrow m.stack rfl, Word.low_low]

theorem pop_narrow (m : Machine) : m.narrow.pop.2.narrow = m.pop.2.narrow := by
  simp only [pop, narrow, CallStack.pop_narrow, CallStack.narrow_narrow, Word.low_low]

theorem setKey_narrow (m : Machine) (key : Int) (pressed : Bool) :
    m.narrow.setKey key pressed = (m.setKey key pressed).map narrow := by
  have hk : m.narrow.keypad = m.keypad := rfl
  rw [setKey, setKey, hk]
  cases m.keypad.setKey key pressed <;> rfl

theorem load_narrow (m : Machine) (image : Image) :
    (m.narrow.load image).count = (m.load image).count ∧
      (m.narrow.load image).machine = (m.load image).machine.narrow := by
  cases h : image.read programMax with
  | error fault => simp only [load, h, installFont, narrow, and_self]
  | ok data => simp only [load, h, installFont, narrow, and_self]

/-- Equal but for the high bits of the program counter, the index and the saved addresses. -/
structure Congruent (m n : Machine) : Prop where
  pc : m.pc.toNat % 4096 = n.pc.toNat % 4096
  i : m.i.toNat % 4096 = n.i.toNat % 4096
  slots : ∀ k, (m.stack.slots.get k).toNat % 4096 = (n.stack.slots.get k).toNat % 4096
  rest : m = { n with pc := m.pc, i := m.i, stack := ⟨m.stack.slots, n.stack.top⟩ }

theorem congruent_iff (m n : Machine) : m.Congruent n ↔ m.narrow = n.narrow := by
  constructor
  · intro h
    have hp := (Word.low_eq_low_iff _ _).mpr h.pc
    have hi := (Word.low_eq_low_iff _ _).mpr h.i
    have hk : m.stack.narrow = n.stack.narrow := by
      refine (CallStack.narrow_eq_narrow_iff _ _).mpr ⟨h.slots, ?_⟩
      rw [h.rest]
    rw [narrow, hp, hi, hk, h.rest]
    rfl
  · intro h
    have hk : m.stack.narrow = n.stack.narrow := congrArg stack h
    obtain ⟨hs, ht⟩ := (CallStack.narrow_eq_narrow_iff _ _).mp hk
    have hp : m.pc.low = n.pc.low := congrArg Machine.pc h
    have hi : m.i.low = n.i.low := congrArg Machine.i h
    refine ⟨(Word.low_eq_low_iff _ _).mp hp, (Word.low_eq_low_iff _ _).mp hi, hs, ?_⟩
    calc
      m = { m.narrow with pc := m.pc, i := m.i, stack := m.stack } := rfl
      _ = { n.narrow with pc := m.pc, i := m.i, stack := m.stack } := by rw [h]
      _ = { n with pc := m.pc, i := m.i, stack := ⟨m.stack.slots, n.stack.top⟩ } := by
        rw [← ht]
        rfl

end Machine

namespace Fault

/-- A refusal that names only the low bits of where it happened. -/
def narrow : Fault → Fault
  | unknownOpcode opcode pc => unknownOpcode opcode (pc % 4096)
  | f => f

end Fault

namespace Session

def narrow (s : Session) : Session := { s with machine := s.machine.narrow }

theorem narrow_narrow (s : Session) : s.narrow.narrow = s.narrow := by
  rw [narrow, narrow, Machine.narrow_narrow]

theorem with_machine_narrow (s : Session) {m n : Machine} (h : m.narrow = n.narrow) :
    narrow { s.narrow with machine := m } = narrow { s with machine := n } := by
  simp only [narrow, h]

theorem settle_narrow (s : Session) (t : Turn) :
    s.narrow.settle t.narrow = ((s.settle t).1, (s.settle t).2.narrow) :=
  settle_map Machine.narrow s t

theorem settle_of_narrow (s : Session) {t u : Turn} (h : t.narrow = u.narrow) :
    (s.narrow.settle t).1 = (s.settle u).1 ∧
      (s.narrow.settle t).2.narrow = (s.settle u).2.narrow := by
  have ht := settle_narrow s.narrow t
  rw [narrow_narrow, h, settle_narrow s u, Prod.mk.injEq] at ht
  exact ⟨ht.1.symm, ht.2.symm⟩

/-- What a command answers, with no more of an address than its low bits. -/
def answer (s : Session) (c : Command) : Except Fault (Option Nat) :=
  (s.perform c).1.mapError Fault.narrow

theorem answer_of_refused {s : Session} (h : Instruction.ofWord? s.machine.fetch = none) :
    s.answer .step =
      .error (.unknownOpcode s.machine.fetch.toNat ((s.machine.pc.toNat : Int) % 4096)) := by
  rw [answer, perform, step_refused h]
  rfl

theorem perform_step_narrow (s : Session) :
    s.narrow.answer .step = s.answer .step ∧
      (s.narrow.perform .step).2.narrow = (s.perform .step).2.narrow := by
  have hf : s.narrow.machine.fetch = s.machine.fetch := Machine.fetch_narrow s.machine
  cases hi : Instruction.ofWord? s.machine.fetch with
  | none =>
      have hn := hi
      rw [← hf] at hn
      have hp : (s.narrow.machine.pc.toNat : Int) % 4096 = s.machine.pc.toNat % 4096 := by
        have := Word.toNat_low s.machine.pc
        simp only [narrow, Machine.narrow]
        omega
      constructor
      · rw [answer_of_refused hn, answer_of_refused hi, hf, hp]
      · rw [perform, perform, step_refused hi, step_refused hn]
        exact narrow_narrow s
  | some i =>
      have ht : (s.narrow.machine.execute i).count.narrow = (s.machine.execute i).count.narrow := by
        rw [← Machine.count_narrow, ← Machine.count_narrow]
        exact congrArg Machine.count (Machine.execute_narrow s.machine i)
      obtain ⟨hr, hs⟩ := settle_of_narrow s ht
      have hn := hi
      rw [← hf] at hn
      simp only [answer, perform, step_executed hi, step_executed hn, hr, hs, and_self]

theorem perform_narrow (s : Session) (c : Command) :
    (c ≠ .pop → s.narrow.answer c = s.answer c) ∧
      (s.narrow.perform c).2.narrow = (s.perform c).2.narrow := by
  cases c with
  | step => exact ⟨fun _ => (perform_step_narrow s).1, (perform_step_narrow s).2⟩
  | tick =>
      have ht : s.narrow.machine.tick.narrow = s.machine.tick.narrow := by
        rw [← Machine.tick_narrow, ← Machine.tick_narrow]
        exact congrArg Machine.tick (Machine.narrow_narrow s.machine)
      obtain ⟨hr, hs⟩ := settle_of_narrow s ht
      simp only [answer, perform, tick, hr, hs, implies_true, and_self]
  | key key pressed =>
      have hk : s.narrow.machine.setKey key pressed =
          (s.machine.setKey key pressed).map Machine.narrow :=
        Machine.setKey_narrow s.machine key pressed
      cases hm : s.machine.setKey key pressed with
      | ok m =>
          rw [hm] at hk
          simp only [answer, perform, hk, hm, Except.map, implies_true, true_and]
          exact with_machine_narrow s (Machine.narrow_narrow m)
      | error fault =>
          rw [hm] at hk
          simp only [answer, perform, hk, hm, Except.map, implies_true, true_and]
          exact narrow_narrow s
  | load image =>
      obtain ⟨hc, hm⟩ := Machine.load_narrow s.machine image
      refine ⟨fun _ => ?_, ?_⟩
      · simp only [answer, perform]
        rw [← hc]
        rfl
      · refine with_machine_narrow s ?_
        change (s.machine.narrow.load image).machine.narrow = _
        rw [hm, Machine.narrow_narrow]
  | write address value =>
      have hw := Machine.narrow_narrow (s.machine.write address value)
      exact ⟨fun _ => rfl, with_machine_narrow s hw⟩
  | push value => exact ⟨fun _ => rfl, with_machine_narrow s (Machine.push_narrow s.machine value)⟩
  | pop => exact ⟨fun h => absurd rfl h, with_machine_narrow s (Machine.pop_narrow s.machine)⟩

theorem perform_eq_of_narrow {s t : Session} (h : s.narrow = t.narrow) (c : Command) :
    (c ≠ .pop → s.answer c = t.answer c) ∧ (s.perform c).2.narrow = (t.perform c).2.narrow := by
  obtain ⟨hs, hs'⟩ := perform_narrow s c
  obtain ⟨ht, ht'⟩ := perform_narrow t c
  rw [h] at hs hs'
  exact ⟨fun hc => (hs hc).symm.trans (ht hc), hs'.symm.trans ht'⟩

theorem after_eq_of_narrow {s t : Session} (h : s.narrow = t.narrow) (cs : List Command) :
    (s.after cs).narrow = (t.after cs).narrow := by
  induction cs generalizing s t with
  | nil => exact h
  | cons c cs ih => exact ih (perform_eq_of_narrow h c).2

/-- A run that forgets the high bits of every address after each command. -/
def narrowAfter (s : Session) : List Command → Session
  | [] => s
  | c :: cs => (s.perform c).2.narrow.narrowAfter cs

theorem after_narrow (s : Session) (cs : List Command) :
    (s.after cs).narrow = s.narrow.narrowAfter cs := by
  induction cs generalizing s with
  | nil => rfl
  | cons c cs ih =>
      rw [after, narrowAfter, ih, (perform_narrow s c).2]

theorem narrow_eq_narrow_iff (s t : Session) :
    s.narrow = t.narrow ↔
      s.machine.Congruent t.machine ∧ s.listener = t.listener ∧ s.heard = t.heard := by
  rw [Machine.congruent_iff, narrow, narrow, Session.mk.injEq]

theorem high_address_bits_unobservable {s t : Session} (h : s.machine.Congruent t.machine)
    (hl : s.listener = t.listener) (hh : s.heard = t.heard) (commands : List Command) :
    let u := s.after commands
    let v := t.after commands
    u.machine.Congruent v.machine ∧ u.heard = v.heard ∧
      (∀ c, c ≠ .pop → u.answer c = v.answer c) ∧
      u.narrow = s.narrow.narrowAfter commands := by
  intro u v
  have hs : s.narrow = t.narrow := (narrow_eq_narrow_iff s t).mpr ⟨h, hl, hh⟩
  have hu : u.narrow = v.narrow := after_eq_of_narrow hs commands
  obtain ⟨hm, -, hheard⟩ := (narrow_eq_narrow_iff u v).mp hu
  exact ⟨hm, hheard, fun c hc => (perform_eq_of_narrow hu c).1 hc, after_narrow s commands⟩

/-- A call, a refusal behind it and its return. -/
def called : Machine :=
  ((Machine.fresh 1 Source.silent).load (.bytes [0x22, 0x04, 0xFF, 0xFF, 0x00, 0xEE])).machine

def calledFromHigh : Machine :=
  { called with pc := 0x3200, i := 0x5000, stack := ⟨Bank.fill 0x1000, 0⟩ }

theorem congruent_called : called.Congruent calledFromHigh :=
  ⟨by decide +kernel, by decide +kernel, by decide +kernel, rfl⟩

theorem high_address_bits_unobservable_after_return :
    let u := (start called none).after [.step, .step]
    let v := (start calledFromHigh none).after [.step, .step]
    called.Congruent calledFromHigh ∧ u.machine.pc = 0x0202 ∧ v.machine.pc = 0x3202 ∧
      u.machine.Congruent v.machine ∧ u.answer .step = v.answer .step := by
  intro u v
  obtain ⟨hm, -, ha, -⟩ := high_address_bits_unobservable (s := start called none)
    (t := start calledFromHigh none) congruent_called rfl rfl [.step, .step]
  exact ⟨congruent_called, by decide +kernel, by decide +kernel, hm, ha .step nofun⟩

end Session

end ChipEight
