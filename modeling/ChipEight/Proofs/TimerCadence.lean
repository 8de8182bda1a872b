import ChipEight.Proofs.Numeric.WellFormed
import ChipEight.Proofs.Ticks

/-!
How often the timers tick. A step that executes an instruction takes one cycle, whatever its
listener does and also while it waits for a key; a step that is refused takes none. Every
`cyclesPerTick` cycles a step ticks, so the two counters tell the number of ticks
(`Machine.Elapsed`), and between two writes to the delay timer it goes down by that number.
-/

namespace ChipEight

namespace Machine

/-- From one machine to a later one, `cycles` instructions were executed and `ticks` ticks fell
due. -/
structure Elapsed (m n : Machine) (cycles ticks : Nat) : Prop where
  cyclesPerTick_eq : n.cyclesPerTick = m.cyclesPerTick
  cycles_eq : n.cycles = m.cycles + cycles
  sinceTick_add : n.sinceTick + m.cyclesPerTick * ticks = m.sinceTick + cycles

theorem elapsed_of_clock {m n : Machine} (h : n.clock = m.clock) : m.Elapsed n 0 0 where
  cyclesPerTick_eq := congrArg Clock.cyclesPerTick h
  cycles_eq := congrArg Clock.cycles h
  sinceTick_add := congrArg Clock.sinceTick h

theorem Elapsed.trans {l m n : Machine} {c d s t : Nat} (h : l.Elapsed m c s)
    (k : m.Elapsed n d t) : l.Elapsed n (c + d) (s + t) := by
  obtain ⟨hper, hcycles, hsince⟩ := h
  obtain ⟨kper, kcycles, ksince⟩ := k
  refine ⟨kper.trans hper, ?_, ?_⟩
  · omega
  · rw [hper] at ksince
    rw [Nat.mul_add]
    omega

theorem Elapsed.div_mod {m n : Machine} {cycles ticks : Nat} (h : m.Elapsed n cycles ticks)
    (hn : n.Paced) :
    ticks = (m.sinceTick + cycles) / m.cyclesPerTick ∧
      n.sinceTick = (m.sinceTick + cycles) % m.cyclesPerTick := by
  have hlt : n.sinceTick < m.cyclesPerTick := h.cyclesPerTick_eq ▸ hn
  have hu := (Nat.div_mod_unique (Nat.zero_lt_of_lt hlt)).mpr ⟨h.sinceTick_add, hlt⟩
  exact ⟨hu.1.symm, hu.2.symm⟩

/-- The machine a cycle later, if no tick is due. -/
def counted (m : Machine) : Machine :=
  { m with cycles := m.cycles + 1, sinceTick := m.sinceTick + 1 }

theorem execute_delay (m : Machine) (i : Instruction) :
    (m.execute i).delay =
      match i with
      | .setDelay x => m.v.get x
      | _ => m.delay := by
  cases i with
  | arithmetic op x y => cases op <;> rfl
  | awaitRelease x =>
      simp only [execute, awaitRelease]
      split <;> rfl
  | _ => rfl

theorem tickStart?_elapsed {m b : Machine} (hm : m.Paced) (h : m.tickStart? = some b) :
    m.Elapsed b 1 1 ∧ b.delay = m.delay := by
  obtain ⟨hdue, rfl⟩ := eq_of_tickStart? h
  -- The counter stands one below the period, and the reset takes the period off.
  have hperiod : m.cyclesPerTick = m.sinceTick + 1 := by
    unfold Paced at hm
    omega
  refine ⟨⟨rfl, rfl, ?_⟩, rfl⟩
  simp [hperiod]

end Machine

def Command.isTick : Command → Bool
  | .tick => true
  | _ => false

namespace Session

/-- The commands of a run, each with the session that it finds. -/
def trace (s : Session) : List Command → List (Session × Command)
  | [] => []
  | c :: cs => (s, c) :: (s.perform c).2.trace cs

def instruction? (s : Session) : Command → Option Instruction
  | .step => Instruction.ofWord? s.machine.fetch
  | _ => none

theorem instruction_of_written {s : Session} {i : Instruction}
    (h : Instruction.Written s.machine.fetch i) : s.instruction? .step = some i :=
  (Instruction.ofWord?_eq_some_iff _ _).mpr h

/-- The machine as the tick at the end of a step begins, if the step comes to one. -/
def stepTick? (s : Session) : Command → Option Machine
  | .step => s.tickStart? .step
  | _ => none

/-- Whether a command is a step that finds `Fx15`. -/
def setsDelay (s : Session) : Command → Bool
  | .step => s.machine.fetch.family == 0xF && s.machine.fetch.byte == 0x15
  | _ => false

/-- The instructions executed in a run. -/
def executions (s : Session) (cs : List Command) : Nat :=
  (s.trace cs).countP fun v => (v.1.instruction? v.2).isSome

/-- The ticks that the steps of a run come to. -/
def stepTicks (s : Session) (cs : List Command) : Nat :=
  (s.trace cs).countP fun v => (v.1.stepTick? v.2).isSome

theorem countP_trace_cons (p : Session × Command → Bool) (s : Session) (c : Command)
    (cs : List Command) :
    (s.trace (c :: cs)).countP p = (p (s, c)).toNat + ((s.perform c).2.trace cs).countP p := by
  rw [trace, List.countP_cons, Nat.add_comm]
  cases p (s, c) <;> rfl

theorem executions_cons (s : Session) (c : Command) (cs : List Command) :
    s.executions (c :: cs) =
      (s.instruction? c).isSome.toNat + (s.perform c).2.executions cs :=
  countP_trace_cons _ s c cs

theorem stepTicks_cons (s : Session) (c : Command) (cs : List Command) :
    s.stepTicks (c :: cs) = (s.stepTick? c).isSome.toNat + (s.perform c).2.stepTicks cs :=
  countP_trace_cons _ s c cs

theorem settle_tick_elapsed (s : Session) (b : Machine) :
    b.Elapsed (s.settle b.tick).2.machine 0 0 ∧
      (s.settle b.tick).2.machine.delay = Machine.countDown b.delay := by
  rcases settle_machine s b.tick with hm | hm
  · rw [hm, Machine.tick_settled]
    exact ⟨⟨rfl, rfl, rfl⟩, rfl⟩
  · rw [hm, Machine.tick_atEdge]
    exact ⟨⟨rfl, rfl, rfl⟩, rfl⟩

theorem settle_count {s : Session} {m : Machine} (hm : m.Paced) :
    m.Elapsed (s.settle m.count).2.machine 1 m.tickStart?.isSome.toNat ∧
      (s.settle m.count).2.machine.delay.toNat = m.delay.toNat - m.tickStart?.isSome.toNat := by
  cases hb : m.tickStart? with
  | none =>
      rw [Machine.count_of_no_tick hb, settle_still]
      exact ⟨⟨rfl, rfl, rfl⟩, rfl⟩
  | some b =>
      obtain ⟨hstart, hkept⟩ := Machine.tickStart?_elapsed hm hb
      obtain ⟨hticked, hdelay⟩ := settle_tick_elapsed s b
      rw [Machine.count_of_tick hb]
      refine ⟨hstart.trans hticked, ?_⟩
      rw [hdelay, Machine.toNat_countDown, hkept]
      rfl

theorem setsDelay_of_instruction? {s : Session} {c : Command} {x : Nibble}
    (h : s.instruction? c = some (.setDelay x)) : s.setsDelay c = true := by
  cases c with
  | step =>
      obtain ⟨hf, hb, -⟩ := Instruction.written_of_ofWord? h
      simp [setsDelay, hf, hb]
  | _ => cases h

theorem perform_timers (s : Session) (c : Command) (hstep : c ≠ .step) (htick : c ≠ .tick) :
    (s.perform c).2.machine.clock = s.machine.clock ∧
      (s.perform c).2.machine.delay = s.machine.delay := by
  obtain ⟨memory, stack, keypad, hp⟩ := perform_frame s hstep htick
  rw [hp]
  exact ⟨rfl, rfl⟩

theorem perform_elapsed {s : Session} (h : s.machine.Paced) (c : Command) :
    s.machine.Elapsed (s.perform c).2.machine (s.instruction? c).isSome.toNat
      (s.stepTick? c).isSome.toNat := by
  cases c with
  | step =>
      cases hi : Instruction.ofWord? s.machine.fetch with
      | none =>
          rw [perform, step_refused hi]
          simp only [instruction?, stepTick?, tickStart?, hi]
          exact Machine.elapsed_of_clock rfl
      | some i =>
          have hclock := Machine.execute_clock s.machine i
          have hcount := (settle_count (s := s) (Machine.paced_of_clock hclock h)).1
          rw [perform, step_executed hi]
          simp only [instruction?, stepTick?, tickStart?, hi, Option.bind_some]
          simpa using (Machine.elapsed_of_clock hclock).trans hcount
  | tick => exact (settle_tick_elapsed s s.machine).1
  | _ => exact Machine.elapsed_of_clock (perform_timers s _ (by simp) (by simp)).1

theorem perform_delay {s : Session} (h : s.machine.Paced) {c : Command}
    (hd : s.setsDelay c = false) :
    (s.perform c).2.machine.delay.toNat =
      s.machine.delay.toNat - ((s.stepTick? c).isSome.toNat + c.isTick.toNat) := by
  cases c with
  | step =>
      cases hi : Instruction.ofWord? s.machine.fetch with
      | none =>
          rw [perform, step_refused hi]
          simp only [stepTick?, tickStart?, hi]
          rfl
      | some i =>
          have hclock := Machine.execute_clock s.machine i
          have hcount := (settle_count (s := s) (Machine.paced_of_clock hclock h)).2
          have hkept : (s.machine.execute i).delay = s.machine.delay := by
            rw [Machine.execute_delay]
            split
            · next x =>
                have hset : s.setsDelay .step = true := setsDelay_of_instruction? hi
                rw [hset] at hd
                cases hd
            · rfl
          rw [perform, step_executed hi]
          simp only [stepTick?, tickStart?, hi, Option.bind_some]
          rw [hcount, hkept]
          rfl
  | tick =>
      rw [perform, tick, (settle_tick_elapsed s s.machine).2, Machine.toNat_countDown]
      rfl
  | _ => exact congrArg BitVec.toNat (perform_timers s _ (by simp) (by simp)).2

theorem after_elapsed {s : Session} (h : s.machine.Paced) (cs : List Command) :
    s.machine.Elapsed (s.after cs).machine (s.executions cs) (s.stepTicks cs) := by
  induction cs generalizing s with
  | nil => exact Machine.elapsed_of_clock rfl
  | cons c cs ih =>
      rw [executions_cons, stepTicks_cons]
      exact (perform_elapsed h c).trans (ih (perform_paced h c))

theorem after_delay {s : Session} (h : s.machine.Paced) {cs : List Command}
    (hd : ∀ v ∈ s.trace cs, v.1.setsDelay v.2 = false) :
    (s.after cs).machine.delay.toNat =
      s.machine.delay.toNat - (s.stepTicks cs + cs.countP Command.isTick) := by
  induction cs generalizing s with
  | nil => rfl
  | cons c cs ih =>
      have hkept : s.setsDelay c = false := hd (s, c) List.mem_cons_self
      have hfirst := perform_delay h hkept
      have hrest := ih (perform_paced h c) fun v hv => hd v (List.mem_cons_of_mem _ hv)
      have htick : (c :: cs).countP Command.isTick = c.isTick.toNat + cs.countP Command.isTick := by
        rw [List.countP_cons, Nat.add_comm]
        cases c.isTick <;> rfl
      rw [after, hrest, hfirst, stepTicks_cons, htick]
      omega

theorem perform_of_instruction? {s : Session} {c : Command} {i : Instruction}
    (h : s.instruction? c = some i) :
    (s.perform c).2 =
      (s.stepTick? c).elim { s with machine := (s.machine.execute i).counted } fun b =>
        (s.settle b.tick).2 := by
  cases c with
  | step =>
      have hi : Instruction.ofWord? s.machine.fetch = some i := h
      cases hb : s.stepTick? .step with
      | none =>
          have hn : (s.machine.execute i).tickStart? = none := by
            simpa only [stepTick?, tickStart?, hi, Option.bind_some] using hb
          rw [perform, step_executed hi, Machine.count_of_no_tick hn, settle_still]
          rfl
      | some b => exact perform_of_tick hb
  | _ => cases h

theorem timers_keep_cadence {cyclesPerTick : Nat} (hc : 1 ≤ cyclesPerTick) (source : Source)
    (listener : Option Listener) (past : List Command) :
    let fresh := start (Machine.fresh cyclesPerTick source) listener
    let s := fresh.after past
    s.machine.cycles = fresh.executions past ∧
      s.machine.sinceTick = s.machine.cycles % cyclesPerTick ∧
      fresh.stepTicks past = s.machine.cycles / cyclesPerTick ∧
      (∀ c i, s.instruction? c = some i →
        (s.perform c).2 =
          (s.stepTick? c).elim { s with machine := (s.machine.execute i).counted } fun b =>
            (s.settle b.tick).2) ∧
      ∀ stretch n,
        let t := s.after stretch
        t.machine.cycles = s.machine.cycles + n →
        n = s.executions stretch ∧
          ((∀ v ∈ s.trace stretch, v.1.setsDelay v.2 = false) →
            t.machine.delay.toNat =
              s.machine.delay.toNat -
                ((s.machine.sinceTick + n) / cyclesPerTick + stretch.countP Command.isTick)) := by
  intro fresh s
  have hfresh : fresh.machine.Paced := hc
  have hs : s.machine.Paced := after_paced hfresh past
  have helapsed : fresh.machine.Elapsed s.machine (fresh.executions past) (fresh.stepTicks past) :=
    after_elapsed hfresh past
  obtain ⟨hticks, hsince⟩ := helapsed.div_mod hs
  have hperiod : s.machine.cyclesPerTick = cyclesPerTick := helapsed.cyclesPerTick_eq
  have hcycles : s.machine.cycles = fresh.executions past := by
    rw [helapsed.cycles_eq]
    exact Nat.zero_add _
  refine ⟨hcycles, ?_, ?_, ?_, ?_⟩
  · rw [hsince, hcycles]
    exact congrArg (· % cyclesPerTick) (Nat.zero_add _)
  · rw [hticks, hcycles]
    exact congrArg (· / cyclesPerTick) (Nat.zero_add _)
  · intro c i
    exact perform_of_instruction?
  · intro stretch n t hn
    have hstretch := after_elapsed hs stretch
    have hexecuted : n = s.executions stretch :=
      Nat.add_left_cancel (hn.symm.trans hstretch.cycles_eq)
    refine ⟨hexecuted, ?_⟩
    intro hd
    have hdiv := (hstretch.div_mod (after_paced hs stretch)).1
    rw [hperiod] at hdiv
    rw [hexecuted, ← hdiv]
    exact after_delay hs hd

/-- Starts both timers and waits for a key, with a refused word behind the wait. -/
def waiting : List Command :=
  [.load (.bytes [0x60, 0x03, 0xF0, 0x15, 0xF0, 0x18, 0xF2, 0x0A, 0xFF, 0xFF]), .step, .step, .step]

def wait : List Command := [.step, .step, .key 7 false, .step, .step]

def lost : Listener := fun _ => some "sound device lost"

theorem timers_keep_cadence_of_wait :
    ∃ s : Session, s = (start (Machine.fresh 2 Source.silent) (some lost)).after waiting ∧
      1 ≤ 2 ∧ s.machine.sinceTick = 1 ∧ s.machine.delay.toNat = 2 ∧
      (s.after wait).machine.cycles = s.machine.cycles + 3 ∧ (s.after wait).heard = [true] ∧
      (s.after wait).machine.pc = 0x208 ∧
      (s.after wait).machine.delay.toNat = 2 - ((1 + 3) / 2 + 0) := by
  have hc : 1 ≤ 2 := by decide
  obtain ⟨-, -, -, -, hcadence⟩ := timers_keep_cadence hc Source.silent (some lost) waiting
  obtain ⟨s, hs⟩ : ∃ s, s = (start (Machine.fresh 2 Source.silent) (some lost)).after waiting :=
    ⟨_, rfl⟩
  rw [← hs] at hcadence
  have hstart : s.machine.sinceTick = 1 ∧ s.machine.delay.toNat = 2 := by
    rw [hs]
    decide +kernel
  have hstretch : (∀ v ∈ s.trace wait, v.1.setsDelay v.2 = false) ∧
      (s.after wait).machine.cycles = s.machine.cycles + 3 ∧ (s.after wait).heard = [true] ∧
      (s.after wait).machine.pc = 0x208 := by
    rw [hs]
    decide +kernel
  obtain ⟨hsince, hdelay⟩ := hstart
  obtain ⟨hkept, hn, hheard, hpc⟩ := hstretch
  have ht := (hcadence wait 3 hn).2 hkept
  rw [hsince, hdelay] at ht
  exact ⟨s, hs, hc, hsince, hdelay, hn, hheard, hpc, ht⟩

end Session

end ChipEight
