import ChipEight.Proofs.Numeric.Commands

/-!
The machine stays well formed. Its numbers keep within their ranges over every sequence of commands,
so a program in whole numbers never asks for a place that is not there (`Session.Numbered`).
-/

namespace ChipEight

/-- Fewer cycles have passed since the last tick than a tick takes. -/
def Machine.Paced (m : Machine) : Prop := m.sinceTick < m.cyclesPerTick

namespace Machine

theorem paced_of_clock {m n : Machine} (h : m.clock = n.clock) (hn : n.Paced) : m.Paced := by
  have hs : m.sinceTick = n.sinceTick := congrArg Clock.sinceTick h
  have hc : m.cyclesPerTick = n.cyclesPerTick := congrArg Clock.cyclesPerTick h
  rw [Paced, hs, hc]
  exact hn

theorem tick_paced {m : Machine} (h : m.Paced) : m.tick.settled.Paced ∧ m.tick.atEdge.Paced := by
  rw [tick_settled, tick_atEdge]
  exact ⟨h, h⟩

theorem count_paced {m : Machine} (h : m.Paced) :
    m.count.settled.Paced ∧ m.count.atEdge.Paced := by
  have hpos : 0 < m.cyclesPerTick := Nat.zero_lt_of_lt h
  simp only [count]
  split
  · exact tick_paced hpos
  · next hc =>
      have hn : m.sinceTick + 1 < m.cyclesPerTick := Nat.lt_of_not_le hc
      exact ⟨hn, hn⟩

theorem fresh_paced {cyclesPerTick : Int} (h : 1 ≤ cyclesPerTick) (source : Source) :
    (fresh cyclesPerTick.toNat source).Paced := by
  have hp : 0 < cyclesPerTick.toNat := by omega
  exact hp

end Machine

namespace Session

theorem settle_paced {s : Session} {turn : Turn}
    (h : turn.settled.Paced ∧ turn.atEdge.Paced) : (s.settle turn).2.machine.Paced := by
  rcases settle_machine s turn with hm | hm
  · rw [hm]
    exact h.1
  · rw [hm]
    exact h.2

theorem perform_paced {s : Session} (h : s.machine.Paced) (c : Command) :
    (s.perform c).2.machine.Paced := by
  rcases s.perform_cases c with rfl | rfl | ⟨memory, stack, keypad, hp⟩
  · cases hi : Instruction.ofWord? s.machine.fetch with
    | none =>
        rw [perform, step_refused hi]
        exact h
    | some i =>
        rw [perform, step_executed hi]
        have he := Machine.paced_of_clock (Machine.execute_clock s.machine i) h
        exact settle_paced (Machine.count_paced he)
  · exact settle_paced (Machine.tick_paced h)
  · rw [hp]
    exact h

theorem after_paced {s : Session} (h : s.machine.Paced) (cs : List Command) :
    (s.after cs).machine.Paced := by
  induction cs generalizing s with
  | nil => exact h
  | cons c cs ih => exact ih (perform_paced h c)

end Session

namespace Numeric

theorem integers_range {bs : List Byte} : ∀ b ∈ integers bs, 0 ≤ b ∧ b < 256 := by
  intro b hb
  obtain ⟨a, _, rfl⟩ := List.mem_map.mp hb
  have := a.isLt
  omega

theorem toNat_range {width : Nat} (b : BitVec width) {bound : Int}
    (hb : (Bank.size width : Int) = bound) : 0 ≤ (b.toNat : Int) ∧ (b.toNat : Int) < bound := by
  have := Bank.toNat_lt_size b
  omega

theorem length_integers {width : Nat} (b : Bank width Byte) :
    (integers b.toList).length = Bank.size width := by
  rw [integers, List.length_map, Bank.length_toList]

theorem cell_range (lit : Bool) : cell lit = 0 ∨ cell lit = 1 := by
  cases lit with
  | false => exact .inl rfl
  | true => exact .inr rfl

theorem wellFormed_numeric {s : Session} (h : s.machine.Paced) : s.numeric.WellFormed where
  memory_length := length_integers s.machine.memory
  memory_range := integers_range
  v_length := length_integers s.machine.v
  v_range := integers_range
  i_range := toNat_range s.machine.i rfl
  pc_range := toNat_range s.machine.pc rfl
  stack_length := by
    rw [Session.numeric, numeric_stack, List.length_map, Bank.length_toList]
    rfl
  stack_range := by
    intro w hw
    obtain ⟨a, _, rfl⟩ := List.mem_map.mp hw
    exact toNat_range a rfl
  sp_range := toNat_range s.machine.stack.top rfl
  delay_range := toNat_range s.machine.delay rfl
  sound_range := toNat_range s.machine.sound rfl
  screen_length := by
    rw [Session.numeric, numeric_screen, List.length_map, Bank.length_toList]
    rfl
  line_length := by
    intro line hline
    obtain ⟨row, _, rfl⟩ := List.mem_map.mp hline
    exact length_cells row
  cell_range := by
    intro line hline c hc
    obtain ⟨row, _, rfl⟩ := List.mem_map.mp hline
    obtain ⟨k, _, rfl⟩ := List.mem_map.mp hc
    exact cell_range _
  down_length := Bank.length_toList s.machine.keypad.down
  released_range := by
    intro key hkey
    obtain ⟨k, _, rfl⟩ := Option.map_eq_some_iff.mp hkey
    exact toNat_range k rfl
  sinceTick_range := by
    have hs : (s.machine.sinceTick : Int) < s.machine.cyclesPerTick := Int.ofNat_lt.mpr h
    exact ⟨Int.natCast_nonneg _, hs⟩

theorem answers_ne_outOfRange (r : Except Fault (Option Nat) × Session) (n : Numeric) :
    answers r ≠ .error .outOfRange n := by
  obtain ⟨r, s⟩ := r
  cases r with
  | ok count => exact fun h => nomatch h
  | error fault => exact fun h => nomatch h

end Numeric

/-- A listener that returns from every call. -/
def Listener.Returns (respond : Listener) : Prop := ∀ call, respond call = none

namespace Session

theorem settle_of_returns {s : Session} (h : ∀ respond ∈ s.listener, respond.Returns)
    (turn : Turn) : (s.settle turn).1 = .ok () := by
  unfold settle
  split
  · next respond _ hr =>
      rw [h respond hr]
  · rfl

theorem step_error_of_returns {s t : Session} {fault : Fault}
    (h : ∀ respond ∈ s.listener, respond.Returns) (hs : s.step = (.error fault, t)) :
    ∃ opcode pc, fault = .unknownOpcode opcode pc := by
  cases hi : Instruction.ofWord? s.machine.fetch with
  | none =>
      rw [step_refused hi] at hs
      cases hs
      exact ⟨_, _, rfl⟩
  | some i =>
      have ho := settle_of_returns h (s.machine.execute i).count
      rw [← step_executed hi, hs] at ho
      cases ho

/-- A state in whole numbers that stands for a session and cannot leave its ranges. -/
structure Numbered (s : Session) (listener : Option Listener) (n : Numeric) : Prop where
  state : n = s.numeric
  wellFormed : n.WellFormed
  answers : ∀ c, (Numeric.perform c).run n = Numeric.answers (s.perform c)
  in_range : ∀ c n', (Numeric.perform c).run n ≠ .error .outOfRange n'
  step_error : (∀ respond ∈ listener, respond.Returns) →
    ∀ trouble n', Numeric.step.run n = .error trouble n' →
      ∃ opcode pc, trouble = .fault (.unknownOpcode opcode pc)

theorem numbered_of_paced {s : Session} (h : s.machine.Paced) :
    s.Numbered s.listener s.numeric where
  state := rfl
  wellFormed := Numeric.wellFormed_numeric h
  answers := Numeric.run_perform s
  in_range := by
    intro c n'
    rw [Numeric.run_perform s c]
    exact Numeric.answers_ne_outOfRange _ n'
  step_error := by
    intro hreturns trouble n' hstep
    rw [Numeric.run_step s] at hstep
    cases hr : s.step with
    | mk r t =>
        rw [hr] at hstep
        cases r with
        | ok u => cases hstep
        | error fault =>
            cases hstep
            obtain ⟨opcode, pc, rfl⟩ := step_error_of_returns hreturns hr
            exact ⟨opcode, pc, rfl⟩

theorem runs_stay_in_range {cyclesPerTick : Int} (hc : 1 ≤ cyclesPerTick) (source : Source)
    (listener : Option Listener) (commands : List Command) :
    ∃ m, Machine.create cyclesPerTick source = .ok m ∧
      ((start m listener).after commands).Numbered listener
        ((Numeric.fresh cyclesPerTick source listener).after commands) := by
  have hcreate : Machine.create cyclesPerTick source =
      .ok (Machine.fresh cyclesPerTick.toNat source) := if_neg (by omega)
  have hnat : (cyclesPerTick.toNat : Int) = cyclesPerTick := Int.toNat_of_nonneg (by omega)
  have hfresh := Numeric.fresh_numeric cyclesPerTick.toNat source listener
  have hstart : (start (Machine.fresh cyclesPerTick.toNat source) listener).machine.Paced :=
    Machine.fresh_paced hc source
  have hn := numbered_of_paced (after_paced hstart commands)
  rw [after_listener] at hn
  rw [hnat] at hfresh
  refine ⟨_, hcreate, ?_⟩
  rw [hfresh, Numeric.after_numeric]
  exact hn

theorem runs_stay_in_range_ticking :
    (1 : Int) ≤ 1 ∧
      ∃ m, Machine.create 1 Source.silent = .ok m ∧
        ((start m none).after
            [.load (.bytes [0xD0, 0x1F, 0xF1]), .step, .step, .write (-1) 300, .push (-7), .pop,
              .key 16 true, .key 15 false, .tick]).Numbered none
          ((Numeric.fresh 1 Source.silent none).after
            [.load (.bytes [0xD0, 0x1F, 0xF1]), .step, .step, .write (-1) 300, .push (-7), .pop,
              .key 16 true, .key 15 false, .tick]) :=
  ⟨by decide, runs_stay_in_range (by decide) Source.silent none _⟩

end Session

end ChipEight
