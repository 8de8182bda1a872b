import ChipEight.Proofs.Decoding
import ChipEight.Proofs.Runs

/-!
The ring of sixteen slots holds the sixteen newest entries of its history. A history is a list of
uses, `StackUse.remember` is what a bounded list would remember of it, and `CallStack.Holds` relates
the ring to that list through every overflow and underflow.
-/

namespace ChipEight

/-- How an entry came onto the stack. -/
inductive StackEntry where
  | called (address : Word)
  | pushed (value : Int)
  deriving DecidableEq

def StackEntry.value : StackEntry → Nat
  | called address => address.toNat
  | pushed value => (value % 65536).toNat

theorem StackEntry.value_lt (e : StackEntry) : e.value < 65536 := by
  cases e with
  | called address => exact address.isLt
  | pushed value =>
      simp only [StackEntry.value]
      omega

inductive StackUse where
  | push (e : StackEntry)
  | pop

namespace StackUse

def act (k : CallStack) : StackUse → CallStack
  | push e => k.push (BitVec.ofNat 16 e.value)
  | pop => k.pop.2

/-- What a list of the sixteen newest entries, the newest first, makes of a use. -/
def remember (xs : List StackEntry) : StackUse → List StackEntry
  | push e => (e :: xs).take 16
  | pop => xs.tail

def isPush : StackUse → Bool
  | push _ => true
  | pop => false

@[simp] theorem isPush_push (e : StackEntry) : (push e).isPush = true := rfl

@[simp] theorem isPush_pop : pop.isPush = false := rfl

end StackUse

namespace CallStack

structure Holds (k : CallStack) (xs : List StackEntry) : Prop where
  length_le : xs.length ≤ 16
  slot_eq : ∀ n (h : n < xs.length),
    (k.slots.get (k.top - BitVec.ofNat 4 (n + 1))).toNat = xs[n].value

theorem Holds.nil (k : CallStack) : k.Holds [] :=
  ⟨by simp, fun _ h => by simp at h⟩

theorem top_sub_eq_iff (top : Nibble) (n : Nat) (hn : n < 16) :
    top = top + 1 - BitVec.ofNat 4 (n + 1) ↔ n = 0 := by
  constructor
  · intro h
    bv_omega
  · rintro rfl
    exact (BitVec.add_sub_cancel _ _).symm

theorem Holds.push {k : CallStack} {xs : List StackEntry} (h : k.Holds xs) (e : StackEntry) :
    (k.push (BitVec.ofNat 16 e.value)).Holds ((e :: xs).take 16) := by
  refine ⟨List.length_take_le _ _, ?_⟩
  intro n hn
  have hlt : n < 16 ∧ n < xs.length + 1 := by
    rw [List.length_take, List.length_cons] at hn
    omega
  simp only [CallStack.push, List.getElem_take, Bank.get_set, top_sub_eq_iff k.top n hlt.1]
  cases n with
  | zero =>
      have := e.value_lt
      simp
      omega
  | succ n =>
      have hs : k.top + 1 - BitVec.ofNat 4 (n + 1 + 1) = k.top - BitVec.ofNat 4 (n + 1) := by
        bv_omega
      rw [if_neg (by omega), hs, List.getElem_cons_succ]
      exact h.slot_eq n (by omega)

theorem Holds.pop {k : CallStack} {xs : List StackEntry} (h : k.Holds xs) :
    k.pop.2.Holds xs.tail := by
  have hle := h.length_le
  refine ⟨by rw [List.length_tail]; omega, ?_⟩
  intro n hn
  have hlt : n + 1 < xs.length := by
    rw [List.length_tail] at hn
    omega
  have hs : k.top - 1 - BitVec.ofNat 4 (n + 1) = k.top - BitVec.ofNat 4 (n + 1 + 1) := by
    bv_omega
  simp only [CallStack.pop, hs, List.getElem_tail]
  exact h.slot_eq (n + 1) hlt

theorem Holds.newest {k : CallStack} {e : StackEntry} {xs : List StackEntry}
    (h : k.Holds (e :: xs)) : k.pop.1.toNat = e.value :=
  h.slot_eq 0 (by simp)

theorem Holds.act {k : CallStack} {xs : List StackEntry} (h : k.Holds xs) (u : StackUse) :
    (u.act k).Holds (u.remember xs) := by
  cases u with
  | push e => exact h.push e
  | pop => exact h.pop

theorem Holds.foldl {k : CallStack} {xs : List StackEntry} (h : k.Holds xs) (us : List StackUse) :
    (us.foldl StackUse.act k).Holds (us.foldl StackUse.remember xs) := by
  induction us generalizing k xs with
  | nil => exact h
  | cons u us ih => exact ih (h.act u)

theorem top_foldl (us : List StackUse) (k : CallStack) :
    ((us.foldl StackUse.act k).top.toNat : Int) =
      (k.top.toNat + us.countP StackUse.isPush - us.countP (!StackUse.isPush ·)) % 16 := by
  induction us generalizing k with
  | nil =>
      have := k.top.isLt
      simp
      omega
  | cons u us ih =>
      have := k.top.isLt
      rw [List.foldl_cons, ih, List.countP_cons, List.countP_cons]
      cases u with
      | push e =>
          simp [StackUse.act, CallStack.push, BitVec.toNat_add]
          omega
      | pop =>
          simp [StackUse.act, CallStack.pop, BitVec.toNat_sub]
          omega

end CallStack

theorem Machine.execute_stack (m : Machine) (i : Instruction) :
    (m.execute i).stack =
      match i with
      | .call _ => m.stack.push m.pc
      | .ret => m.stack.pop.2
      | _ => m.stack := by
  cases i with
  | arithmetic op x y => cases op <;> rfl
  | awaitRelease x =>
      simp only [execute, awaitRelease]
      split <;> rfl
  | _ => rfl

theorem Machine.stack_timeless : Timeless Machine.stack := fun _ _ _ _ _ _ => rfl

namespace Session

/-- What a command does to the stack: `2nnn` saves its own address and `0nEE` takes one back. -/
def stackUse? (s : Session) : Command → Option StackUse
  | .step =>
      if s.machine.fetch.family = 0x2 then some (.push (.called s.machine.pc))
      else if s.machine.fetch.family = 0x0 ∧ s.machine.fetch.byte = 0xEE then some .pop
      else none
  | .push value => some (.push (.pushed value))
  | .pop => some .pop
  | _ => none

theorem stackUse?_of_refused {s : Session} (h : Instruction.ofWord? s.machine.fetch = none) :
    s.stackUse? .step = none := by
  have hc : ¬ s.machine.fetch.family = 0x2 := by
    intro hf
    rw [(Instruction.ofWord?_eq_some_iff _ (.call _)).mpr ⟨hf, rfl⟩] at h
    cases h
  have hr : ¬ (s.machine.fetch.family = 0x0 ∧ s.machine.fetch.byte = 0xEE) := by
    intro hf
    rw [(Instruction.ofWord?_eq_some_iff _ .ret).mpr hf] at h
    cases h
  rw [stackUse?, if_neg hc, if_neg hr]

theorem step_stack (s : Session) :
    s.step.2.machine.stack =
      (s.stackUse? .step).elim s.machine.stack (StackUse.act s.machine.stack) := by
  cases h : Instruction.ofWord? s.machine.fetch with
  | none => rw [step_refused h, stackUse?_of_refused h, Option.elim_none]
  | some i =>
      rw [step_timeless Machine.stack_timeless h, Machine.execute_stack]
      have hw := Instruction.written_of_ofWord? h
      cases i with
      | call target => simp [stackUse?, hw.1, StackUse.act, StackEntry.value]
      | ret => simp [stackUse?, hw.1, hw.2, StackUse.act]
      | clear => simp [stackUse?, hw.1, hw.2]
      | _ => simp [stackUse?, hw.1]

theorem perform_stack (s : Session) (c : Command) :
    (s.perform c).2.machine.stack =
      (s.stackUse? c).elim s.machine.stack (StackUse.act s.machine.stack) := by
  cases c with
  | step => exact step_stack s
  | tick => exact tick_timeless Machine.stack_timeless s
  | key key pressed =>
      rcases Machine.setKey_cases s.machine key pressed with ⟨keypad, h⟩ | ⟨fault, h⟩
      · simp only [perform, h]
        rfl
      · simp only [perform, h]
        rfl
  | load image =>
      obtain ⟨memory, h⟩ := Machine.load_machine s.machine image
      simp only [perform, h]
      rfl
  | write address value => rfl
  | push value =>
      have hv : Field.word value = BitVec.ofNat 16 (StackEntry.pushed value).value := by
        apply BitVec.eq_of_toNat_eq
        simp only [Field.word, StackEntry.value, BitVec.toNat_ofInt, BitVec.toNat_ofNat]
        omega
      simp only [perform, Machine.push, stackUse?, Option.elim_some, StackUse.act, hv]
  | pop => rfl

def stackUses (s : Session) : List Command → List StackUse
  | [] => []
  | c :: cs => (s.stackUse? c).toList ++ (s.perform c).2.stackUses cs

/-- What a list of the sixteen newest entries remembers of a run that found it empty. -/
def remembered (s : Session) (cs : List Command) : List StackEntry :=
  (s.stackUses cs).foldl StackUse.remember []

theorem after_stack (s : Session) (cs : List Command) :
    (s.after cs).machine.stack = (s.stackUses cs).foldl StackUse.act s.machine.stack := by
  induction cs generalizing s with
  | nil => rfl
  | cons c cs ih =>
      rw [after, ih, perform_stack, stackUses, List.foldl_append]
      cases s.stackUse? c <;> rfl

theorem stackUses_concat (s : Session) (cs : List Command) (c : Command) :
    s.stackUses (cs ++ [c]) = s.stackUses cs ++ ((s.after cs).stackUse? c).toList := by
  induction cs generalizing s with
  | nil => simp [stackUses, after]
  | cons d cs ih => simp [stackUses, after, ih]

theorem remembered_concat (s : Session) (cs : List Command) (c : Command) :
    s.remembered (cs ++ [c]) =
      ((s.after cs).stackUse? c).elim (s.remembered cs) (StackUse.remember (s.remembered cs)) := by
  rw [remembered, stackUses_concat, List.foldl_append]
  cases (s.after cs).stackUse? c <;> rfl

theorem holds_remembered (s : Session) (cs : List Command) :
    (s.after cs).machine.stack.Holds (s.remembered cs) := by
  rw [after_stack]
  exact (CallStack.Holds.nil _).foldl _

theorem pc_of_ret {s : Session} (hf : s.machine.fetch.family = 0x0)
    (hb : s.machine.fetch.byte = 0xEE) :
    s.step.2.machine.pc = s.machine.stack.pop.1 + 2 := by
  have hi := (Instruction.ofWord?_eq_some_iff s.machine.fetch .ret).mpr ⟨hf, hb⟩
  have ht : Machine.Timeless Machine.pc := fun _ _ _ _ _ _ => rfl
  rw [step_timeless ht hi]
  rfl

theorem stack_refines_bounded_list (s : Session) (cs : List Command) :
    let t := s.after cs
    let kept := s.remembered cs
    t.machine.stack.Holds kept ∧
      (∀ c, s.remembered (cs ++ [c]) = (t.stackUse? c).elim kept (StackUse.remember kept)) ∧
      (∀ e, kept.head? = some e → (t.perform .pop).1 = .ok (some e.value)) ∧
      (∀ address, kept.head? = some (.called address) →
        t.machine.fetch.family = 0x0 → t.machine.fetch.byte = 0xEE →
        (t.perform .step).2.machine.pc.toNat = (address.toNat + 2) % 65536) ∧
      (t.machine.stack.top.toNat : Int) =
        (s.machine.stack.top.toNat + (s.stackUses cs).countP StackUse.isPush -
          (s.stackUses cs).countP (!StackUse.isPush ·)) % 16 ∧
      ∀ c, t.stackUse? c = none → (t.perform c).2.machine.stack = t.machine.stack := by
  intro t kept
  have hold : t.machine.stack.Holds kept := holds_remembered s cs
  have newest : ∀ e, kept.head? = some e → t.machine.stack.pop.1.toNat = e.value := by
    intro e he
    obtain ⟨rest, hk⟩ := List.head?_eq_some_iff.mp he
    exact (hk ▸ hold).newest
  refine ⟨hold, remembered_concat s cs, ?_, ?_, ?_, ?_⟩
  · intro e he
    rw [← newest e he]
    rfl
  · intro address ha hf hb
    have hp := pc_of_ret hf hb
    have hn : t.machine.stack.pop.1.toNat = address.toNat := newest _ ha
    change t.step.2.machine.pc.toNat = _
    rw [hp, BitVec.toNat_add, hn]
    rfl
  · rw [after_stack]
    exact CallStack.top_foldl _ _
  · intro c hc
    rw [perform_stack, hc, Option.elim_none]

theorem stack_refines_bounded_list_of_call :
    (((start (Machine.fresh 14 Source.silent) none).after
      [.load (.bytes [0x22, 0x02, 0x00, 0xEE]), .step]).perform .step).2.machine.pc.toNat =
        (0x200 + 2) % 65536 :=
  (stack_refines_bounded_list (start (Machine.fresh 14 Source.silent) none)
    [.load (.bytes [0x22, 0x02, 0x00, 0xEE]), .step]).2.2.2.1 0x200 (by decide +kernel)
    (by decide +kernel) (by decide +kernel)

end Session

end ChipEight
