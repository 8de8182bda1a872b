import ChipEight.Session

/-!
What a tick, a step and a sequence of commands do to a session, said once. A property that the
timers and counters do not touch is the same after a step as after its instruction
(`Session.step_timeless`).
-/

namespace ChipEight

def Turn.map (f : Machine → Machine) (t : Turn) : Turn := ⟨t.edge, f t.atEdge, f t.settled⟩

namespace Machine

theorem tick_settled (m : Machine) :
    m.tick.settled =
      { m with
        delay := countDown m.delay
        sound := countDown m.sound
        tone := decide (m.sound ≠ 0) } := by
  simp only [tick]
  split
  · next hs => split <;> simp_all [Turn.still, countDown]
  · next hs => simp_all

theorem tick_atEdge (m : Machine) :
    m.tick.atEdge = { m with delay := countDown m.delay, tone := decide (m.sound ≠ 0) } := by
  simp only [tick]
  split
  · next hs => split <;> simp_all [Turn.still]
  · next hs => simp_all

theorem tick_edge (m : Machine) :
    m.tick.edge =
      if m.tone = decide (m.sound ≠ 0) then none else some (decide (m.sound ≠ 0)) := by
  simp only [tick]
  split
  · next hs => split <;> simp_all [Turn.still]
  · next hs => simp_all

/-- Reads nothing that the timers and counters change. -/
def Timeless {α : Type} (f : Machine → α) : Prop :=
  ∀ (m : Machine) (delay sound : Byte) (tone : Bool) (cycles sinceTick : Nat),
    f { m with delay, sound, tone, cycles, sinceTick } = f m

theorem Timeless.tick {α : Type} {f : Machine → α} (hf : Timeless f) (m : Machine) :
    f m.tick.settled = f m ∧ f m.tick.atEdge = f m := by
  rw [tick_settled, tick_atEdge]
  exact ⟨hf m _ _ _ _ _, hf m _ _ _ _ _⟩

theorem Timeless.count {α : Type} {f : Machine → α} (hf : Timeless f) (m : Machine) :
    f m.count.settled = f m ∧ f m.count.atEdge = f m := by
  have hc (cycles sinceTick : Nat) : f { m with cycles, sinceTick } = f m := hf m _ _ _ _ _
  simp only [Machine.count]
  split
  · rw [(hf.tick _).1, (hf.tick _).2]
    exact ⟨hc _ _, hc _ _⟩
  · exact ⟨hc _ _, hc _ _⟩

/-- What an instruction leaves to the count of cycles and the timers. -/
structure Clock where
  cycles : Nat
  sinceTick : Nat
  cyclesPerTick : Nat
  tone : Bool

def clock (m : Machine) : Clock := ⟨m.cycles, m.sinceTick, m.cyclesPerTick, m.tone⟩

/-- All that a count of cycles and a tick can change, and what they go by. -/
structure Timing extends Clock where
  delay : Byte
  sound : Byte

def timing (m : Machine) : Timing := { m.clock with delay := m.delay, sound := m.sound }

def retime (m : Machine) (t : Timing) : Machine :=
  { m with
    cycles := t.cycles
    sinceTick := t.sinceTick
    tone := t.tone
    delay := t.delay
    sound := t.sound }

theorem tick_of_timing {m n : Machine} (h : m.timing = n.timing) :
    m.tick.edge = n.tick.edge ∧ m.tick.atEdge.timing = n.tick.atEdge.timing ∧
      m.tick.settled.timing = n.tick.settled.timing := by
  simp only [timing, clock, Timing.mk.injEq, Clock.mk.injEq] at h
  obtain ⟨⟨hcycles, hsince, hperiod, htone⟩, hdelay, hsound⟩ := h
  rw [tick_edge, tick_edge, tick_atEdge, tick_atEdge, tick_settled, tick_settled]
  simp only [timing, clock, hcycles, hsince, hperiod, htone, hdelay, hsound, and_self]

theorem count_of_timing {m n : Machine} (h : m.timing = n.timing) :
    m.count.edge = n.count.edge ∧ m.count.atEdge.timing = n.count.atEdge.timing ∧
      m.count.settled.timing = n.count.settled.timing := by
  have hparts := h
  simp only [timing, clock, Timing.mk.injEq, Clock.mk.injEq] at hparts
  obtain ⟨⟨hcycles, hsince, hperiod, htone⟩, hdelay, hsound⟩ := hparts
  simp only [count, hcycles, hsince, hperiod]
  split
  · apply tick_of_timing
    simp only [timing, clock, htone, hdelay, hsound]
  · simp only [Turn.still, timing, clock, htone, hdelay, hsound, and_self]

theorem tick_retime (m : Machine) :
    m.tick.atEdge = m.retime m.tick.atEdge.timing ∧
      m.tick.settled = m.retime m.tick.settled.timing := by
  rw [tick_atEdge, tick_settled]
  exact ⟨rfl, rfl⟩

theorem count_retime (m : Machine) :
    m.count.atEdge = m.retime m.count.atEdge.timing ∧
      m.count.settled = m.retime m.count.settled.timing := by
  simp only [count]
  split
  · exact tick_retime { m with cycles := m.cycles + 1, sinceTick := 0 }
  · exact ⟨rfl, rfl⟩

/-- Neither reads nor changes what a tick goes by. -/
structure Untimed (f : Machine → Machine) : Prop where
  timing : ∀ m, (f m).timing = m.timing
  retime : ∀ m t, f (m.retime t) = (f m).retime t

theorem Untimed.turn {f : Machine → Machine} (hf : Untimed f) {turn : Machine → Turn}
    (htiming : ∀ {m n : Machine}, m.timing = n.timing →
      (turn m).edge = (turn n).edge ∧ (turn m).atEdge.timing = (turn n).atEdge.timing ∧
        (turn m).settled.timing = (turn n).settled.timing)
    (hretime : ∀ m, (turn m).atEdge = m.retime (turn m).atEdge.timing ∧
      (turn m).settled = m.retime (turn m).settled.timing)
    (m : Machine) : turn (f m) = (turn m).map f := by
  obtain ⟨hedge, hatEdge, hsettled⟩ := htiming (hf.timing m)
  calc
    turn (f m) =
        ⟨(turn (f m)).edge, (f m).retime (turn (f m)).atEdge.timing,
          (f m).retime (turn (f m)).settled.timing⟩ := by
      rw [← (hretime (f m)).1, ← (hretime (f m)).2]
    _ = ⟨(turn m).edge, f (m.retime (turn m).atEdge.timing),
          f (m.retime (turn m).settled.timing)⟩ := by
      rw [hedge, hatEdge, hsettled, hf.retime, hf.retime]
    _ = (turn m).map f := by
      rw [← (hretime m).1, ← (hretime m).2]
      rfl

theorem Untimed.tick {f : Machine → Machine} (hf : Untimed f) (m : Machine) :
    (f m).tick = m.tick.map f :=
  hf.turn tick_of_timing tick_retime m

theorem Untimed.count {f : Machine → Machine} (hf : Untimed f) (m : Machine) :
    (f m).count = m.count.map f :=
  hf.turn count_of_timing count_retime m

theorem execute_clock (m : Machine) (i : Instruction) : (m.execute i).clock = m.clock := by
  cases i with
  | arithmetic op x y => cases op <;> rfl
  | awaitRelease x =>
      simp only [execute, awaitRelease]
      split <;> rfl
  | _ => rfl

theorem execute_cycles (m : Machine) (i : Instruction) : (m.execute i).cycles = m.cycles :=
  congrArg Clock.cycles (execute_clock m i)

theorem execute_tone (m : Machine) (i : Instruction) : (m.execute i).tone = m.tone :=
  congrArg Clock.tone (execute_clock m i)

theorem step_error {m : Machine} {fault : Fault} (h : m.step = .error fault) :
    fault = .unknownOpcode m.fetch.toNat m.pc.toNat := by
  unfold step at h
  split at h
  · cases h
  · cases h
    rfl

theorem load_of_read (m : Machine) {image : Image} {data unread : List Byte}
    (h : image.read 3584 = .ok (data, unread)) :
    m.load image =
      ⟨.ok data.length, unread,
        { m.installFont with memory := m.installFont.memory.write programStart data }⟩ := by
  have hr : image.read programMax = .ok (data, unread) := h
  simp only [load, hr]

theorem load_of_fault (m : Machine) {image : Image} {fault : Fault}
    (h : image.read 3584 = .error fault) :
    m.load image = ⟨.error fault, [], m.installFont⟩ := by
  have hr : image.read programMax = .error fault := h
  simp only [load, hr]

theorem load_machine (m : Machine) (image : Image) :
    ∃ memory, (m.load image).machine = { m with memory } := by
  cases h : image.read programMax with
  | error fault =>
      refine ⟨m.installFont.memory, ?_⟩
      simp only [load, h, installFont]
  | ok data =>
      refine ⟨m.installFont.memory.write programStart data.1, ?_⟩
      simp only [load, h, installFont]

theorem setKey_cases (m : Machine) (key : Int) (pressed : Bool) :
    (∃ keypad, m.setKey key pressed = .ok { m with keypad }) ∨
      ∃ fault, m.setKey key pressed = .error fault := by
  unfold setKey
  cases m.keypad.setKey key pressed with
  | ok keypad => exact .inl ⟨keypad, rfl⟩
  | error fault => exact .inr ⟨fault, rfl⟩

end Machine

namespace Session

theorem settle_machine (s : Session) (turn : Turn) :
    (s.settle turn).2.machine = turn.settled ∨ (s.settle turn).2.machine = turn.atEdge := by
  unfold settle
  split
  · split
    · exact .inl rfl
    · exact .inr rfl
  · exact .inl rfl

theorem settle_heard {m : Machine} {respond : Listener} {h : List Bool} {turn : Turn} {on : Bool}
    (ht : turn.edge = some on) (hr : respond h.length = none) :
    settle ⟨m, some respond, h⟩ turn = (.ok (), ⟨turn.settled, some respond, h ++ [on]⟩) := by
  simp only [settle, ht, hr]

theorem settle_failed {m : Machine} {respond : Listener} {h : List Bool} {turn : Turn} {on : Bool}
    {message : String} (ht : turn.edge = some on) (hr : respond h.length = some message) :
    settle ⟨m, some respond, h⟩ turn =
      (.error (.listener message), ⟨turn.atEdge, some respond, h ++ [on]⟩) := by
  simp only [settle, ht, hr]

theorem settle_map (f : Machine → Machine) (s : Session) (turn : Turn) :
    { s with machine := f s.machine }.settle (turn.map f) =
      ((s.settle turn).1, { (s.settle turn).2 with machine := f (s.settle turn).2.machine }) := by
  obtain ⟨edge, atEdge, settled⟩ := turn
  obtain ⟨m, listener, heard⟩ := s
  cases edge with
  | none => rfl
  | some on =>
      cases listener with
      | none => rfl
      | some respond =>
          simp only [Turn.map, settle]
          cases respond heard.length <;> rfl

theorem settle_listener (s : Session) (turn : Turn) :
    (s.settle turn).2.listener = s.listener := by
  unfold settle
  split
  · split <;> rfl
  · rfl

theorem step_refused {s : Session} (h : Instruction.ofWord? s.machine.fetch = none) :
    s.step = (.error (.unknownOpcode s.machine.fetch.toNat s.machine.pc.toNat), s) := by
  simp only [step, Machine.step, h]

theorem step_executed {s : Session} {i : Instruction}
    (h : Instruction.ofWord? s.machine.fetch = some i) :
    s.step = s.settle (s.machine.execute i).count := by
  simp only [step, Machine.step, h]

theorem step_timeless {α : Type} {f : Machine → α} (hf : Machine.Timeless f) {s : Session}
    {i : Instruction} (h : Instruction.ofWord? s.machine.fetch = some i) :
    f s.step.2.machine = f (s.machine.execute i) := by
  rw [step_executed h]
  rcases settle_machine s (s.machine.execute i).count with hm | hm
  · rw [hm, (hf.count _).1]
  · rw [hm, (hf.count _).2]

theorem tick_timeless {α : Type} {f : Machine → α} (hf : Machine.Timeless f) (s : Session) :
    f s.tick.2.machine = f s.machine := by
  rcases settle_machine s s.machine.tick with hm | hm
  · rw [tick, hm, (hf.tick _).1]
  · rw [tick, hm, (hf.tick _).2]

/-- A command that neither steps nor ticks reaches the memory, the stack and the keypad only. -/
theorem perform_frame (s : Session) {c : Command} (hstep : c ≠ .step) (htick : c ≠ .tick) :
    ∃ memory stack keypad,
      (s.perform c).2 = { s with machine := { s.machine with memory, stack, keypad } } := by
  cases c with
  | step => exact absurd rfl hstep
  | tick => exact absurd rfl htick
  | key key pressed =>
      rcases Machine.setKey_cases s.machine key pressed with ⟨keypad, hk⟩ | ⟨fault, hk⟩
      · refine ⟨s.machine.memory, s.machine.stack, keypad, ?_⟩
        simp only [perform, hk]
      · refine ⟨s.machine.memory, s.machine.stack, s.machine.keypad, ?_⟩
        simp only [perform, hk]
  | load image =>
      obtain ⟨memory, hm⟩ := Machine.load_machine s.machine image
      refine ⟨memory, s.machine.stack, s.machine.keypad, ?_⟩
      simp only [perform, hm]
  | write address value =>
      exact ⟨(s.machine.write address value).memory, s.machine.stack, s.machine.keypad, rfl⟩
  | push value =>
      exact ⟨s.machine.memory, (s.machine.push value).stack, s.machine.keypad, rfl⟩
  | pop => exact ⟨s.machine.memory, s.machine.pop.2.stack, s.machine.keypad, rfl⟩

theorem perform_cases (s : Session) (c : Command) :
    c = .step ∨ c = .tick ∨ ∃ memory stack keypad,
      (s.perform c).2 = { s with machine := { s.machine with memory, stack, keypad } } := by
  cases c with
  | step => exact .inl rfl
  | tick => exact .inr (.inl rfl)
  | _ => exact .inr (.inr (s.perform_frame nofun nofun))

theorem perform_listener (s : Session) (c : Command) :
    (s.perform c).2.listener = s.listener := by
  rcases s.perform_cases c with rfl | rfl | ⟨memory, stack, keypad, hp⟩
  · cases h : Instruction.ofWord? s.machine.fetch with
    | none => rw [perform, step_refused h]
    | some i =>
        rw [perform, step_executed h]
        exact settle_listener s _
  · exact settle_listener s _
  · rw [hp]

def after (s : Session) : List Command → Session
  | [] => s
  | c :: cs => (s.perform c).2.after cs

theorem after_append (s : Session) (cs ds : List Command) :
    s.after (cs ++ ds) = (s.after cs).after ds := by
  induction cs generalizing s with
  | nil => rfl
  | cons c cs ih => exact ih (s.perform c).2

theorem after_listener (s : Session) (cs : List Command) :
    (s.after cs).listener = s.listener := by
  induction cs generalizing s with
  | nil => rfl
  | cons c cs ih =>
      rw [after, ih]
      exact perform_listener s c

end Session

end ChipEight
