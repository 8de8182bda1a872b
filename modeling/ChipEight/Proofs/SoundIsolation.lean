import ChipEight.Proofs.Runs

/-!
What the sound cannot do. Nothing that an instruction, a tick or a command does to the rest of a
machine depends on the sound timer, on the tone or on who listens to it (`Session.perform_muted`),
so machines that differ in these alone stay as they are and are refused the same words.
-/

namespace ChipEight

namespace Machine

def muted (m : Machine) : Machine := { m with sound := 0, tone := false }

def EqualButSound (m n : Machine) : Prop := m = { n with sound := m.sound, tone := m.tone }

theorem equalButSound_iff (m n : Machine) : m.EqualButSound n ↔ m.muted = n.muted := by
  constructor
  · intro h
    calc
      m.muted = muted { n with sound := m.sound, tone := m.tone } := congrArg muted h
      _ = n.muted := rfl
  · intro h
    calc
      m = { m.muted with sound := m.sound, tone := m.tone } := rfl
      _ = { n.muted with sound := m.sound, tone := m.tone } := by rw [h]
      _ = { n with sound := m.sound, tone := m.tone } := rfl

theorem execute_muted (m : Machine) (i : Instruction) :
    (m.muted.execute i).muted = (m.execute i).muted := by
  cases i with
  | arithmetic op x y => cases op <;> rfl
  | awaitRelease x =>
      have hk : m.muted.keypad = m.keypad := rfl
      simp only [execute, awaitRelease, hk]
      split <;> rfl
  | _ => rfl

theorem tick_muted (m : Machine) :
    m.tick.settled.muted = { m.muted with delay := countDown m.delay } ∧
      m.tick.atEdge.muted = { m.muted with delay := countDown m.delay } := by
  rw [tick_settled, tick_atEdge]
  exact ⟨rfl, rfl⟩

theorem count_muted (m : Machine) :
    m.count.settled.muted = m.muted.count.settled.muted ∧
      m.count.atEdge.muted = m.muted.count.settled.muted := by
  by_cases hd : m.cyclesPerTick ≤ m.sinceTick + 1
  · have hm : m.count = tick { m with cycles := m.cycles + 1, sinceTick := 0 } := if_pos hd
    have hn : m.muted.count = tick (muted { m with cycles := m.cycles + 1, sinceTick := 0 }) :=
      if_pos hd
    rw [hm, hn, (tick_muted _).1, (tick_muted _).2, (tick_muted _).1]
    exact ⟨rfl, rfl⟩
  · have hm : m.count =
        .still { m with cycles := m.cycles + 1, sinceTick := m.sinceTick + 1 } := if_neg hd
    have hn : m.muted.count =
        .still (muted { m with cycles := m.cycles + 1, sinceTick := m.sinceTick + 1 }) := if_neg hd
    rw [hm, hn]
    exact ⟨rfl, rfl⟩

end Machine

namespace Session

theorem settle_muted (s : Session) {turn : Turn} {m : Machine} (hs : turn.settled.muted = m)
    (he : turn.atEdge.muted = m) : (s.settle turn).2.machine.muted = m := by
  rcases settle_machine s turn with hm | hm
  · rw [hm, hs]
  · rw [hm, he]

/-- What a command answers. A failure of the listener counts as none: the command is done. -/
def verdict (s : Session) (c : Command) : Except Fault (Option Nat) :=
  match (s.perform c).1 with
  | .error (.listener _) => .ok none
  | answer => answer

theorem verdict_of_settle {s : Session} {c : Command} {turn : Turn}
    (h : (s.perform c).1 = (s.settle turn).1.map fun _ => none) : s.verdict c = .ok none := by
  unfold settle at h
  split at h
  · split at h <;> simp only [verdict, h, Except.map]
  · simp only [verdict, h, Except.map]

theorem verdict_eq_unknownOpcode_iff (s : Session) (c : Command) (opcode pc : Int) :
    s.verdict c = .error (.unknownOpcode opcode pc) ↔
      (s.perform c).1 = .error (.unknownOpcode opcode pc) := by
  unfold verdict
  split
  · next h => simp [h]
  · exact Iff.rfl

/-- The session with the sound off and nobody listening. -/
def muted (s : Session) : Session := start s.machine.muted none

theorem perform_step_muted (s : Session) :
    (s.muted.perform .step).2.machine.muted = (s.perform .step).2.machine.muted ∧
      s.muted.verdict .step = s.verdict .step := by
  have hf : s.muted.machine.fetch = s.machine.fetch := rfl
  cases hi : Instruction.ofWord? s.machine.fetch with
  | none =>
      have hn := hi
      rw [← hf] at hn
      simp only [verdict, perform, step_refused hi, step_refused hn, Except.map]
      exact ⟨rfl, rfl⟩
  | some i =>
      have hn := hi
      rw [← hf] at hn
      have hm := Machine.count_muted (s.machine.execute i)
      have hq := Machine.count_muted (s.muted.machine.execute i)
      have he : (s.muted.machine.execute i).muted = (s.machine.execute i).muted :=
        Machine.execute_muted s.machine i
      rw [he] at hq
      have hs : (s.perform .step).1 =
          (s.settle (s.machine.execute i).count).1.map fun _ => none := by
        rw [perform, step_executed hi]
      have ht : (s.muted.perform .step).1 =
          (s.muted.settle (s.muted.machine.execute i).count).1.map fun _ => none := by
        rw [perform, step_executed hn]
      refine ⟨?_, (verdict_of_settle ht).trans (verdict_of_settle hs).symm⟩
      rw [perform, perform, step_executed hi, step_executed hn]
      exact (settle_muted s.muted hq.1 hq.2).trans (settle_muted s hm.1 hm.2).symm

theorem perform_muted (s : Session) (c : Command) :
    (s.muted.perform c).2.machine.muted = (s.perform c).2.machine.muted ∧
      s.muted.verdict c = s.verdict c := by
  cases c with
  | step => exact perform_step_muted s
  | tick =>
      have hm := Machine.tick_muted s.machine
      have hq := Machine.tick_muted s.muted.machine
      have hs : (s.perform .tick).1 = (s.settle s.machine.tick).1.map fun _ => none := rfl
      have ht : (s.muted.perform .tick).1 =
          (s.muted.settle s.muted.machine.tick).1.map fun _ => none := rfl
      refine ⟨?_, (verdict_of_settle ht).trans (verdict_of_settle hs).symm⟩
      exact (settle_muted s.muted hq.1 hq.2).trans (settle_muted s hm.1 hm.2).symm
  | key key pressed =>
      have hk : s.muted.machine.keypad = s.machine.keypad := rfl
      simp only [verdict, perform, Machine.setKey, hk]
      cases s.machine.keypad.setKey key pressed <;> exact ⟨rfl, rfl⟩
  | load image =>
      simp only [verdict, perform, Machine.load]
      cases image.read Machine.programMax <;> exact ⟨rfl, rfl⟩
  | write address value => exact ⟨rfl, rfl⟩
  | push value => exact ⟨rfl, rfl⟩
  | pop => exact ⟨rfl, rfl⟩

theorem muted_eq_muted_iff (s t : Session) :
    s.muted = t.muted ↔ s.machine.EqualButSound t.machine := by
  rw [Machine.equalButSound_iff]
  constructor
  · intro h
    exact congrArg machine h
  · intro h
    rw [muted, muted, h]

theorem perform_eq_of_muted {s t : Session} (h : s.muted = t.muted) (c : Command) :
    (s.perform c).2.muted = (t.perform c).2.muted ∧ s.verdict c = t.verdict c := by
  obtain ⟨hs, hs'⟩ := perform_muted s c
  obtain ⟨ht, ht'⟩ := perform_muted t c
  rw [h] at hs hs'
  refine ⟨?_, hs'.symm.trans ht'⟩
  rw [muted, muted, ← hs, ← ht]

theorem after_eq_of_muted {s t : Session} (h : s.muted = t.muted) (cs : List Command) :
    (s.after cs).muted = (t.after cs).muted := by
  induction cs generalizing s t with
  | nil => exact h
  | cons c cs ih => exact ih (perform_eq_of_muted h c).1

theorem sound_unobservable {s t : Session} (h : s.machine.EqualButSound t.machine)
    (commands : List Command) :
    let u := s.after commands
    let v := t.after commands
    u.machine.EqualButSound v.machine ∧
      ∀ c, u.verdict c = v.verdict c ∧
        ∀ opcode pc, (u.perform c).1 = .error (.unknownOpcode opcode pc) ↔
          (v.perform c).1 = .error (.unknownOpcode opcode pc) := by
  intro u v
  have hs : s.muted = t.muted := (muted_eq_muted_iff s t).mpr h
  have hu : u.muted = v.muted := after_eq_of_muted hs commands
  refine ⟨(muted_eq_muted_iff u v).mp hu, ?_⟩
  intro c
  have hc := (perform_eq_of_muted hu c).2
  refine ⟨hc, ?_⟩
  intro opcode pc
  rw [← verdict_eq_unknownOpcode_iff, ← verdict_eq_unknownOpcode_iff, hc]

/-- Sets both timers and reads one of them, with a refused word at the end. -/
def timed : Machine :=
  ((Machine.fresh 1 Source.silent).load
    (.bytes [0x60, 0x02, 0xF0, 0x18, 0xF0, 0x15, 0xF1, 0x07, 0xFF, 0xFF])).machine

def humming : Machine := { timed with sound := 9, tone := true }

theorem sound_unobservable_under_failing_calls :
    let u := (start timed (some fun _ => some "sound device lost")).after
      [.step, .step, .step, .step]
    let v := (start humming none).after [.step, .step, .step, .step]
    timed.EqualButSound humming ∧ u.heard = [true] ∧ u.machine.sound = 0 ∧ v.machine.sound = 0 ∧
      u.machine.tone = true ∧ u.machine.v.get 1 = 1 ∧ u.machine.EqualButSound v.machine ∧
      (u.perform .step).1 = .error (.unknownOpcode 0xFFFF 0x208) ∧
      (v.perform .step).1 = .error (.unknownOpcode 0xFFFF 0x208) := by
  intro u v
  have hm : timed.EqualButSound humming := rfl
  obtain ⟨hequal, hverdict⟩ := sound_unobservable
    (s := start timed (some fun _ => some "sound device lost")) (t := start humming none) hm
    [.step, .step, .step, .step]
  have hstopped : Instruction.ofWord? u.machine.fetch = none ∧ u.machine.fetch.toNat = 0xFFFF ∧
      u.machine.pc.toNat = 0x208 ∧ u.heard = [true] ∧ u.machine.sound = 0 ∧
      u.machine.tone = true ∧ u.machine.v.get 1 = 1 := by
    decide +kernel
  have hquiet : v.machine.sound = 0 := by decide +kernel
  obtain ⟨hi, hword, hpc, hheard, hsound, htone, hv1⟩ := hstopped
  have hu : (u.perform .step).1 = .error (.unknownOpcode 0xFFFF 0x208) := by
    rw [perform, step_refused hi, hword, hpc]
    rfl
  have hv := ((hverdict .step).2 0xFFFF 0x208).mp hu
  exact ⟨hm, hheard, hsound, hquiet, htone, hv1, hequal, hu, hv⟩

end Session

end ChipEight
