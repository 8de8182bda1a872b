import ChipEight.Proofs.Runs

/-!
The ticks of a session. `Session.tickStart?` is the machine as the tick of a command begins. A tick
leaves the tone on exactly when it found the sound timer running, and the listener is called for the
changes of the tone and for nothing else, so it hears on and off in turn (`Session.InTurn`).
-/

namespace ChipEight

namespace Machine

/-- The machine as the tick at the end of an instruction begins, if one is due. -/
def tickStart? (m : Machine) : Option Machine :=
  if m.cyclesPerTick ≤ m.sinceTick + 1 then
    some { m with cycles := m.cycles + 1, sinceTick := 0 }
  else none

theorem eq_of_tickStart? {m b : Machine} (h : m.tickStart? = some b) :
    m.cyclesPerTick ≤ m.sinceTick + 1 ∧ b = { m with cycles := m.cycles + 1, sinceTick := 0 } := by
  unfold tickStart? at h
  split at h
  · next hd => exact ⟨hd, (Option.some.inj h).symm⟩
  · cases h

theorem count_of_tick {m b : Machine} (h : m.tickStart? = some b) : m.count = b.tick := by
  obtain ⟨hd, rfl⟩ := eq_of_tickStart? h
  exact if_pos hd

theorem count_of_no_tick {m : Machine} (h : m.tickStart? = none) :
    m.count = .still { m with cycles := m.cycles + 1, sinceTick := m.sinceTick + 1 } := by
  unfold tickStart? at h
  split at h
  · cases h
  · next hd => exact if_neg hd

theorem tickStart?_tone {m b : Machine} (h : m.tickStart? = some b) : b.tone = m.tone := by
  rw [(eq_of_tickStart? h).2]

end Machine

namespace Session

/-- The machine as the tick of a command begins, if the command comes to one. -/
def tickStart? (s : Session) : Command → Option Machine
  | .step => (Instruction.ofWord? s.machine.fetch).bind fun i => (s.machine.execute i).tickStart?
  | .tick => some s.machine
  | _ => none

theorem tickStart?_tone {s : Session} {c : Command} {b : Machine} (h : s.tickStart? c = some b) :
    b.tone = s.machine.tone := by
  cases c with
  | step =>
      obtain ⟨i, _, hb⟩ := Option.bind_eq_some_iff.mp h
      rw [Machine.tickStart?_tone hb, Machine.execute_tone]
  | tick =>
      cases h
      rfl
  | _ => cases h

theorem perform_of_tick {s : Session} {c : Command} {b : Machine} (h : s.tickStart? c = some b) :
    (s.perform c).2 = (s.settle b.tick).2 := by
  cases c with
  | step =>
      obtain ⟨i, hi, hb⟩ := Option.bind_eq_some_iff.mp h
      rw [perform, step_executed hi, Machine.count_of_tick hb]
  | tick =>
      cases h
      rfl
  | _ => cases h

theorem settle_still (s : Session) (m : Machine) :
    (s.settle (.still m)).2 = { s with machine := m } := by
  cases hl : s.listener <;> simp [settle, Turn.still, hl]

theorem perform_of_no_tick {s : Session} {c : Command} (h : s.tickStart? c = none) :
    (s.perform c).2.machine.tone = s.machine.tone ∧ (s.perform c).2.heard = s.heard := by
  rcases s.perform_cases c with rfl | rfl | ⟨memory, stack, keypad, hp⟩
  · cases hi : Instruction.ofWord? s.machine.fetch with
    | none =>
        rw [perform, step_refused hi]
        exact ⟨rfl, rfl⟩
    | some i =>
        have hn : (s.machine.execute i).tickStart? = none := by
          simpa only [tickStart?, hi, Option.bind_some] using h
        rw [perform, step_executed hi, Machine.count_of_no_tick hn, settle_still]
        exact ⟨Machine.execute_tone s.machine i, rfl⟩
  · cases h
  · rw [hp]
    exact ⟨rfl, rfl⟩

theorem settle_tick_tone (s : Session) (b : Machine) :
    (s.settle b.tick).2.machine.tone = decide (b.sound ≠ 0) := by
  rcases settle_machine s b.tick with hm | hm
  · rw [hm, Machine.tick_settled]
  · rw [hm, Machine.tick_atEdge]

theorem settle_tick_heard {m b : Machine} {respond : Listener} {h : List Bool} :
    (settle ⟨m, some respond, h⟩ b.tick).2.heard =
      h ++ if b.tone = decide (b.sound ≠ 0) then [] else [decide (b.sound ≠ 0)] := by
  have he := Machine.tick_edge b
  by_cases ht : b.tone = decide (b.sound ≠ 0)
  · rw [if_pos ht] at he ⊢
    simp [settle, he]
  · rw [if_neg ht] at he ⊢
    -- The call is made before its answer is known, so one that fails is heard too.
    cases hr : respond h.length with
    | none => rw [settle_heard he hr]
    | some message => rw [settle_failed he hr]

theorem perform_heard {s : Session} {respond : Listener} (hl : s.listener = some respond)
    (c : Command) :
    (s.perform c).2.heard =
      s.heard ++ if (s.perform c).2.machine.tone = s.machine.tone then []
        else [(s.perform c).2.machine.tone] := by
  obtain ⟨m, l, h⟩ := s
  cases hl
  cases hb : tickStart? ⟨m, some respond, h⟩ c with
  | none =>
      obtain ⟨ht, hh⟩ := perform_of_no_tick hb
      rw [hh, if_pos ht, List.append_nil]
  | some b =>
      rw [perform_of_tick hb, settle_tick_heard, settle_tick_tone, ← tickStart?_tone hb]
      simp only [eq_comm]

/-- What is heard alternates, on first, and ends with the tone as it is. -/
structure InTurn (s : Session) : Prop where
  alternates : ∀ k (h : k < s.heard.length), s.heard[k] = decide (k % 2 = 0)
  newest : s.heard.getLast?.getD false = s.machine.tone

theorem InTurn.tone_eq {s : Session} (h : s.InTurn) :
    s.machine.tone = decide (s.heard.length % 2 = 1) := by
  rw [← h.newest]
  rcases List.eq_nil_or_concat s.heard with hn | ⟨xs, x, hx⟩
  · rw [hn]
    rfl
  · rw [List.concat_eq_append] at hx
    have hlast := h.alternates xs.length (by simp [hx])
    simp only [hx, List.getElem_concat_length] at hlast
    rw [hx, List.getLast?_concat, Option.getD_some, hlast, List.length_append,
      List.length_singleton, decide_eq_decide]
    omega

theorem InTurn.perform {s : Session} {respond : Listener} (hl : s.listener = some respond)
    (h : s.InTurn) (c : Command) : (s.perform c).2.InTurn := by
  have hh := perform_heard hl c
  by_cases ht : (s.perform c).2.machine.tone = s.machine.tone
  · rw [if_pos ht, List.append_nil] at hh
    constructor
    · simp only [hh]
      exact h.alternates
    · rw [hh, ht]
      exact h.newest
  · rw [if_neg ht] at hh
    -- The number of calls so far tells the tone, so the next call carries on in turn.
    have hnew : (s.perform c).2.machine.tone = decide (s.heard.length % 2 = 0) := by
      have hold := h.tone_eq
      cases hs : s.machine.tone <;> simp_all
    constructor
    · intro k hk
      simp only [hh, List.length_append, List.length_singleton] at hk
      simp only [hh]
      by_cases hlt : k < s.heard.length
      · rw [List.getElem_append_left hlt]
        exact h.alternates k hlt
      · obtain rfl : k = s.heard.length := by omega
        rw [List.getElem_concat_length rfl, hnew]
    · rw [hh, List.getLast?_concat, Option.getD_some]

theorem InTurn.after {s : Session} {respond : Listener} (hl : s.listener = some respond)
    (h : s.InTurn) (cs : List Command) : (s.after cs).InTurn := by
  induction cs generalizing s with
  | nil => exact h
  | cons c cs ih =>
      have hn : (s.perform c).2.listener = some respond := (perform_listener s c).trans hl
      exact ih hn (h.perform hl c)

theorem inTurn_start (cyclesPerTick : Nat) (source : Source) (listener : Option Listener) :
    (start (Machine.fresh cyclesPerTick source) listener).InTurn :=
  ⟨fun _ hk => absurd hk (Nat.not_lt_zero _), rfl⟩

theorem listener_hears_tone_in_turn (cyclesPerTick : Nat) (source : Source) (respond : Listener)
    (commands : List Command) :
    let s := (start (Machine.fresh cyclesPerTick source) (some respond)).after commands
    s.InTurn ∧ ∀ c,
      let t := (s.perform c).2
      ((s.tickStart? c).elim (t.machine.tone = s.machine.tone) fun b =>
        t = (s.settle b.tick).2 ∧ (t.machine.tone = true ↔ b.sound ≠ 0)) ∧
      t.heard = s.heard ++ if t.machine.tone = s.machine.tone then [] else [t.machine.tone] := by
  intro s
  have hl : s.listener = some respond := after_listener _ commands
  have hs : s.InTurn := (inTurn_start cyclesPerTick source (some respond)).after rfl commands
  refine ⟨hs, ?_⟩
  intro c t
  refine ⟨?_, perform_heard hl c⟩
  cases hb : s.tickStart? c with
  | none => exact (perform_of_no_tick hb).1
  | some b =>
      have ht : t = (s.settle b.tick).2 := perform_of_tick hb
      refine ⟨ht, ?_⟩
      rw [ht, settle_tick_tone, decide_eq_true_iff]

end Session

end ChipEight
