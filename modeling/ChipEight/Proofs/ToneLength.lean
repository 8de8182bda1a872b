import ChipEight.Proofs.TimerCadence

/-!
How long a tone lasts. A sound timer set to `n` while the tone is off keeps the tone on from the
first tick to the `n`-th, and one tick longer if the listener fails when it is told that the tone
begins: that failure leaves the tick before the timer has moved (`Session.Rings`).
-/

namespace ChipEight

namespace Machine

theorem execute_sound (m : Machine) (i : Instruction) :
    (m.execute i).sound =
      match i with
      | .setSound x => m.v.get x
      | _ => m.sound := by
  cases i with
  | arithmetic op x y => cases op <;> rfl
  | awaitRelease x =>
      simp only [execute, awaitRelease]
      split <;> rfl
  | _ => rfl

theorem tickStart?_sound {m b : Machine} (h : m.tickStart? = some b) : b.sound = m.sound := by
  rw [(eq_of_tickStart? h).2]

end Machine

namespace Session

/-- Whether a command is a step that finds `Fx18`. -/
def setsSound (s : Session) : Command → Bool
  | .step => s.machine.fetch.family == 0xF && s.machine.fetch.byte == 0x18
  | _ => false

/-- The ticks of a run, those of its steps and those that it asks for. -/
def ticks (s : Session) (cs : List Command) : Nat :=
  (s.trace cs).countP fun v => (v.1.tickStart? v.2).isSome

/-- Whether the listener fails its next call. -/
def late (s : Session) : Bool :=
  match s.listener with
  | none => false
  | some respond => (respond s.heard.length).isSome

/-- A session after `j` ticks of a tone of `n`. -/
structure Rings (n : Nat) (late : Bool) (j : Nat) (s : Session) : Prop where
  sound_eq : s.machine.sound.toNat = n - (j - late.toNat)
  tone_iff : s.machine.tone = true ↔ 1 ≤ j ∧ j ≤ n + late.toNat
  late_eq : j = 0 → s.late = late

theorem ticks_cons (s : Session) (c : Command) (cs : List Command) :
    s.ticks (c :: cs) = (s.tickStart? c).isSome.toNat + (s.perform c).2.ticks cs :=
  countP_trace_cons _ s c cs

theorem setsSound_of_instruction? {s : Session} {c : Command} {x : Nibble}
    (h : s.instruction? c = some (.setSound x)) : s.setsSound c = true := by
  cases c with
  | step =>
      obtain ⟨hf, hb, -⟩ := Instruction.written_of_ofWord? h
      simp [setsSound, hf, hb]
  | _ => cases h

theorem execute_sound_of_unset {s : Session} {i : Instruction}
    (hi : s.instruction? .step = some i) (hs : s.setsSound .step = false) :
    (s.machine.execute i).sound = s.machine.sound := by
  rw [Machine.execute_sound]
  cases i with
  | setSound x =>
      rw [setsSound_of_instruction? hi] at hs
      cases hs
  | _ => rfl

section Rings

variable {n j : Nat} {late : Bool} {s t : Session}

theorem Rings.congr (h : Rings n late j s) (hs : t.machine.sound = s.machine.sound)
    (ht : t.machine.tone = s.machine.tone) (hl : t.late = s.late) : Rings n late j t := by
  obtain ⟨hsound, htone, hlate⟩ := h
  refine ⟨?_, ?_, ?_⟩
  · rw [hs, hsound]
  · rw [ht, htone]
  · rwa [hl]

theorem settle_start {b : Machine} (hs : b.sound ≠ 0) (ht : b.tone = false) :
    (s.settle b.tick).2.machine.tone = true ∧
      (s.settle b.tick).2.machine.sound.toNat = b.sound.toNat - 1 + s.late.toNat := by
  have hpos : 0 < b.sound.toNat := Nat.pos_of_ne_zero fun h => hs (BitVec.eq_of_toNat_eq h)
  have hedge : b.tick.edge = some true := by
    rw [Machine.tick_edge, ht, decide_eq_true hs]
    rfl
  obtain ⟨m, listener, heard⟩ := s
  have hsettled : b.tick.settled.tone = true ∧ b.tick.settled.sound.toNat = b.sound.toNat - 1 := by
    rw [Machine.tick_settled]
    exact ⟨decide_eq_true hs, Machine.toNat_countDown b.sound⟩
  cases listener with
  | none =>
      simp only [settle, hedge, Session.late]
      exact hsettled
  | some respond =>
      cases hr : respond heard.length with
      | none =>
          rw [settle_heard hedge hr]
          simp only [Session.late, hr]
          exact hsettled
      | some message =>
          rw [settle_failed hedge hr, Machine.tick_atEdge]
          simp only [Session.late, hr]
          refine ⟨decide_eq_true hs, ?_⟩
          simp
          omega

theorem Rings.tick (hn : 1 ≤ n) {b : Machine} (h : Rings n late j { s with machine := b }) :
    Rings n late (j + 1) (s.settle b.tick).2 := by
  obtain ⟨hsound, htone, hlate⟩ := h
  dsimp only at hsound htone
  have hle : late.toNat ≤ 1 := Bool.toNat_le late
  have hnow := settle_tick_tone s b
  by_cases hs : b.sound = 0
  · -- The timer has run down, so this tick ends the tone or finds it ended.
    have hover : n + late.toNat ≤ j := by
      rw [hs] at hsound
      simp at hsound
      omega
    have hzero : (s.settle b.tick).2.machine.sound = 0 := by
      rcases settle_machine s b.tick with hm | hm
      · rw [hm, Machine.tick_settled, hs]
        rfl
      · rw [hm, Machine.tick_atEdge, hs]
    refine ⟨?_, ?_, nofun⟩
    · rw [hzero]
      simp
      omega
    · rw [hnow, hs]
      simp
      omega
  · have hpos : 0 < b.sound.toNat := Nat.pos_of_ne_zero fun h => hs (BitVec.eq_of_toNat_eq h)
    have hon : (s.settle b.tick).2.machine.tone = true := by rw [hnow, decide_eq_true hs]
    cases ht : b.tone with
    | true =>
        -- The tone goes on: nobody is called, and the timer moves.
        have hj := htone.mp ht
        have hedge : b.tick.edge = none := by
          rw [Machine.tick_edge, ht, decide_eq_true hs, if_pos rfl]
        have hmachine : (s.settle b.tick).2.machine = b.tick.settled := by
          simp only [settle, hedge]
        refine ⟨?_, ⟨fun _ => by omega, fun _ => hon⟩, nofun⟩
        rw [hmachine, Machine.tick_settled]
        simp only [Machine.toNat_countDown, hsound]
        omega
    | false =>
        have hj : j = 0 := by
          have : ¬ (1 ≤ j ∧ j ≤ n + late.toNat) := by simp [← htone, ht]
          omega
        have hl : s.late = late := hlate hj
        have hstart := (settle_start (s := s) hs ht).2
        rw [hl] at hstart
        refine ⟨?_, ⟨fun _ => by omega, fun _ => hon⟩, nofun⟩
        rw [hstart]
        omega

theorem Rings.step (hn : 1 ≤ n) {i : Instruction} (hi : s.instruction? .step = some i)
    (h : Rings n late j { s with machine := s.machine.execute i }) :
    Rings n late (j + (s.tickStart? .step).isSome.toNat) (s.perform .step).2 := by
  have hb : s.tickStart? .step = (s.machine.execute i).tickStart? := by
    have hw : Instruction.ofWord? s.machine.fetch = some i := hi
    simp only [tickStart?, hw, Option.bind_some]
  rw [perform_of_instruction? hi, stepTick?, hb]
  cases ht : (s.machine.execute i).tickStart? with
  | none => exact h.congr rfl rfl rfl
  | some b =>
      refine Rings.tick hn (h.congr ?_ ?_ rfl)
      · exact Machine.tickStart?_sound ht
      · exact Machine.tickStart?_tone ht

theorem Rings.frame (h : Rings n late j s) {c : Command} (hstep : c ≠ .step) (htick : c ≠ .tick) :
    Rings n late j (s.perform c).2 := by
  obtain ⟨memory, stack, keypad, hp⟩ := perform_frame s hstep htick
  rw [hp]
  exact h.congr rfl rfl rfl

theorem Rings.perform (hn : 1 ≤ n) (h : Rings n late j s) {c : Command}
    (hc : s.setsSound c = false) :
    Rings n late (j + (s.tickStart? c).isSome.toNat) (s.perform c).2 := by
  cases c with
  | step =>
      cases hi : s.instruction? .step with
      | none =>
          have hw : Instruction.ofWord? s.machine.fetch = none := hi
          rw [Session.perform, step_refused hw]
          simp only [tickStart?, hw, Option.bind_none]
          exact h
      | some i =>
          have hsound := execute_sound_of_unset hi hc
          exact Rings.step hn hi (h.congr hsound (Machine.execute_tone s.machine i) rfl)
  | tick => exact Rings.tick hn h
  | _ => exact h.frame (by simp) (by simp)

theorem Rings.after (hn : 1 ≤ n) (h : Rings n late j s) {cs : List Command}
    (hkept : ∀ v ∈ s.trace cs, v.1.setsSound v.2 = false) :
    Rings n late (j + s.ticks cs) (s.after cs) := by
  induction cs generalizing s j with
  | nil => exact h
  | cons c cs ih =>
      have hfirst := h.perform hn (hkept (s, c) List.mem_cons_self)
      have hrest := ih hfirst fun v hv => hkept v (List.mem_cons_of_mem _ hv)
      rwa [ticks_cons, ← Nat.add_assoc]

end Rings

theorem tone_lasts {s : Session} {x : Nibble} {n : Nat} (hoff : s.machine.tone = false)
    (hi : s.instruction? .step = some (.setSound x)) (hx : (s.machine.v.get x).toNat = n)
    (hn : 1 ≤ n) {rest : List Command}
    (hkept : ∀ v ∈ (s.perform .step).2.trace rest, v.1.setsSound v.2 = false) :
    let t := s.after (.step :: rest)
    let j := s.ticks (.step :: rest)
    t.machine.sound.toNat = n - (j - s.late.toNat) ∧
      (t.machine.tone = true ↔ 1 ≤ j ∧ j ≤ n + s.late.toNat) := by
  intro t j
  have hset : Rings n s.late 0 { s with machine := s.machine.execute (.setSound x) } := by
    refine ⟨?_, ?_, fun _ => rfl⟩
    · rw [Nat.zero_sub]
      exact hx
    · simp [Machine.execute_tone, hoff]
  have hstep := hset.step hn hi
  have hrest := hstep.after hn hkept
  rw [Nat.zero_add, ← ticks_cons] at hrest
  exact ⟨hrest.sound_eq, hrest.tone_iff⟩

/-- A tone of one tick, begun by the second instruction. -/
def beep : List Command := [.load (.bytes [0x60, 0x01, 0xF0, 0x18, 0x12, 0x04]), .step]

theorem tone_lasts_after_failing_call :
    ∃ s, s = (start (Machine.fresh 1 Source.silent) (some lost)).after beep ∧
      s.machine.tone = false ∧ s.instruction? .step = some (.setSound 0) ∧
      (s.machine.v.get 0).toNat = 1 ∧ s.late = true ∧ s.ticks [.step, .step] = 2 ∧
      (s.after [.step, .step]).machine.sound.toNat = 1 - (2 - 1) ∧
      (s.after [.step, .step]).machine.tone = true := by
  obtain ⟨s, hs⟩ : ∃ s, s = (start (Machine.fresh 1 Source.silent) (some lost)).after beep :=
    ⟨_, rfl⟩
  have hset : s.machine.tone = false ∧ s.instruction? .step = some (.setSound 0) ∧
      (s.machine.v.get 0).toNat = 1 ∧ s.late = true := by
    rw [hs]
    decide +kernel
  have hrest : s.ticks [.step, .step] = 2 ∧
      ∀ v ∈ (s.perform .step).2.trace [.step], v.1.setsSound v.2 = false := by
    rw [hs]
    decide +kernel
  obtain ⟨hoff, hi, hx, hlate⟩ := hset
  obtain ⟨hticks, hkept⟩ := hrest
  obtain ⟨hsound, htone⟩ := tone_lasts hoff hi hx (by decide) hkept
  rw [hticks, hlate] at hsound htone
  exact ⟨s, hs, hoff, hi, hx, hlate, hticks, hsound, htone.mpr (by decide)⟩

theorem tone_of_one_tick_sounds_for_two :
    let s := (start (Machine.fresh 1 Source.silent) (some lost)).after beep
    s.machine.tone = false ∧ s.instruction? .step = some (.setSound 0) ∧ s.machine.v.get 0 = 1 ∧
      s.ticks [.step] = 1 ∧ (s.after [.step]).machine.sound = 1 ∧
      s.ticks [.step, .step] = 2 ∧ (s.after [.step, .step]).machine.tone = true := by
  decide +kernel

end Session

end ChipEight
