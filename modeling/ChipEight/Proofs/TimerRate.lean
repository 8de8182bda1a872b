import ChipEight.Proofs.AudioIsolation
import ChipEight.Proofs.ConsoleHistory
import ChipEight.Proofs.HeadlessRun
import ChipEight.Proofs.ToneLength

/-!
How fast the timers of a command go. Its console is made at the speed that it asks for, its machine
at fourteen instructions to a tick whatever that is. So the timers of a run tick once every fourteen
instructions (`Console.Counted`), and the faster the command, the faster its timers.
-/

namespace ChipEight

namespace Session

theorem settle_unheard {s : Session} (hl : s.listener = none) (turn : Turn) :
    (s.settle turn).2.machine = turn.settled := by
  rw [settle, hl]
  cases turn.edge <;> rfl

theorem perform_sound {s : Session} (hl : s.listener = none) (hs : s.setsSound .step = false) :
    (s.perform .step).2.machine.sound.toNat =
      s.machine.sound.toNat - (s.stepTick? .step).isSome.toNat := by
  cases hi : s.instruction? .step with
  | none =>
      have hw : Instruction.ofWord? s.machine.fetch = none := hi
      rw [perform, step_refused hw]
      simp only [stepTick?, tickStart?, hw]
      rfl
  | some i =>
      have hkept := execute_sound_of_unset hi hs
      rw [perform_of_instruction? hi]
      cases hb : s.stepTick? .step with
      | none => exact congrArg BitVec.toNat hkept
      | some b =>
          obtain ⟨j, hj, hstart⟩ := Option.bind_eq_some_iff.mp hb
          cases hi.symm.trans hj
          have hsound : b.sound = s.machine.sound :=
            (Machine.tickStart?_sound hstart).trans hkept
          rw [Option.elim_some, settle_unheard hl, Machine.tick_settled]
          exact (Machine.toNat_countDown b.sound).trans (by rw [hsound]; rfl)

end Session

namespace Console

/-- The machine by itself as a step is about to execute an instruction, if the display lets it. -/
def core? (c : Console) : Option Session :=
  match c.poll with
  | (.ok true, polled) => some (.start polled.machine none)
  | _ => none

def executes (c : Console) : Bool := c.core?.any fun s => (s.instruction? .step).isSome

def ticks (c : Console) : Bool := c.core?.any fun s => (s.stepTick? .step).isSome

def setsDelay (c : Console) : Bool := c.core?.any fun s => s.setsDelay .step

def setsSound (c : Console) : Bool := c.core?.any fun s => s.setsSound .step

theorem eq_of_core? {c : Console} {s : Session} (h : c.core? = some s) :
    s = .start c.poll.2.machine none := by
  unfold core? at h
  split at h
  · next hp =>
      cases h
      rw [hp]
  · cases h

theorem step_machine (c : Console) :
    c.step.2.machine = c.core?.elim c.poll.2.machine fun s => (s.perform .step).2.machine := by
  unfold core? step
  obtain ⟨answer, polled⟩ := c.poll
  cases answer with
  | error fault => rfl
  | ok stays =>
      cases stays with
      | false => rfl
      | true =>
          cases hm : polled.machine.step with
          | error fault => simp [execute, Session.perform, Session.step, Session.start, hm]
          | ok turn =>
              have hs : (Session.start polled.machine none).listener = none := rfl
              obtain ⟨t, ht, htm, -⟩ := Session.step_unheard hs hm
              simp only [execute, hm, countFrame_machine, settle_machine, Option.elim_some,
                Session.perform, ht, htm]

theorem step_elapsed {c : Console} (h : c.machine.Paced) :
    c.machine.Elapsed c.step.2.machine c.executes.toNat c.ticks.toNat ∧
      c.step.2.machine.Paced := by
  have hpolled : c.machine.Elapsed c.poll.2.machine 0 0 := Machine.elapsed_of_clock rfl
  rw [step_machine, executes, ticks]
  cases hc : c.core? with
  | none => exact ⟨hpolled, h⟩
  | some s =>
      obtain rfl := eq_of_core? hc
      have hs : (Session.start c.poll.2.machine none).machine.Paced := h
      have hperformed := hpolled.trans (Session.perform_elapsed hs .step)
      rw [Nat.zero_add, Nat.zero_add] at hperformed
      exact ⟨hperformed, Session.perform_paced hs .step⟩

/-- A timer that a step leaves to the ticks unless an instruction sets it. -/
def CountsDown (timer : Machine → Byte) (sets : Console → Bool) : Prop :=
  ∀ c : Console, c.machine.Paced → sets c = false →
    (timer c.step.2.machine).toNat = (timer c.machine).toNat - c.ticks.toNat

theorem countsDown_of_step {timer : Machine → Byte} {sets : Session → Bool}
    (hpoll : ∀ c : Console, timer c.poll.2.machine = timer c.machine)
    (hstep : ∀ s : Session, s.listener = none → s.machine.Paced → sets s = false →
      (timer (s.perform .step).2.machine).toNat =
        (timer s.machine).toNat - (s.stepTick? .step).isSome.toNat) :
    CountsDown timer fun c => c.core?.any sets := by
  intro c h hset
  dsimp only at hset
  rw [step_machine, ticks, ← hpoll]
  cases hc : c.core? with
  | none => rfl
  | some s =>
      rw [hc] at hset
      obtain rfl := eq_of_core? hc
      exact hstep (.start c.poll.2.machine none) rfl h hset

theorem countsDown_delay : CountsDown Machine.delay setsDelay :=
  countsDown_of_step (fun _ => rfl) fun _ _ h hset => Session.perform_delay h hset

theorem countsDown_sound : CountsDown Machine.sound setsSound :=
  countsDown_of_step (fun _ => rfl) fun _ hl _ hset => Session.perform_sound hl hset

/-- What a timer shows has gone down by the ticks of the consoles stepped since it was set. -/
def RunDown (timer : Machine → Byte) (sets : Console → Bool) (seen : List Console) (m : Machine) :
    Prop :=
  ∀ past e since, seen = past ++ e :: since → (∀ d ∈ e :: since, sets d = false) →
    (timer m).toNat = (timer e.machine).toNat - (e :: since).countP ticks

theorem runDown_nil (timer : Machine → Byte) (sets : Console → Bool) (m : Machine) :
    RunDown timer sets [] m := by
  intro past e since h
  cases past <;> cases h

structure Counted (fresh : Machine) (seen : List Console) (m : Machine) : Prop where
  paced : m.Paced
  elapsed : fresh.Elapsed m (seen.countP executes) (seen.countP ticks)
  delay : RunDown Machine.delay setsDelay seen m
  sound : RunDown Machine.sound setsSound seen m

theorem countP_singleton (p : Console → Bool) (c : Console) : [c].countP p = (p c).toNat := by
  rw [List.countP_singleton]
  cases p c <;> rfl

theorem RunDown.step {timer : Machine → Byte} {sets : Console → Bool}
    (ht : CountsDown timer sets) {seen : List Console} {c : Console} (hc : c.machine.Paced)
    (h : RunDown timer sets seen c.machine) :
    RunDown timer sets (seen ++ [c]) c.step.2.machine := by
  intro past e since heq hkept
  -- The console stepped last is either the first one since the timer was set or the newest of them.
  rcases List.eq_nil_or_concat since with rfl | ⟨older, d, rfl⟩
  · obtain ⟨-, hlast⟩ := List.append_inj' heq rfl
    obtain rfl : c = e := List.head_eq_of_cons_eq hlast
    rw [countP_singleton]
    exact ht c hc (hkept c List.mem_cons_self)
  · rw [List.concat_eq_append, ← List.cons_append] at heq hkept ⊢
    rw [← List.append_assoc] at heq
    obtain ⟨hseen, hlast⟩ := List.append_inj' heq rfl
    obtain rfl : c = d := List.head_eq_of_cons_eq hlast
    have holder := h past e older hseen fun u hu => hkept u (List.mem_append_left [c] hu)
    have hstep := ht c hc (hkept c (List.mem_append_right (e :: older) List.mem_cons_self))
    rw [hstep, holder, List.countP_append, countP_singleton]
    omega

theorem kept_counted (fresh : Machine) : Kept fun seen c => Counted fresh seen c.machine where
  step seen c h := by
    obtain ⟨hstep, hpaced⟩ := step_elapsed h.paced
    refine ⟨hpaced, ?_, h.delay.step countsDown_delay h.paced,
      h.sound.step countsDown_sound h.paced⟩
    rw [List.countP_append, List.countP_append, countP_singleton, countP_singleton]
    exact h.elapsed.trans hstep
  sleep _ _ h := h
  silence _ _ h := h
  inject _ c key pressed h := by
    have hm : (c.inject key pressed).2.machine = c.machine := by
      unfold inject
      cases c.display <;> rfl
    rwa [hm]

theorem run_machine {c : Console} {limit : Option Int} {realtime : Bool} {patience : Nat}
    {ended : Except Fault Nat × Console} (h : c.run limit realtime patience = some ended) :
    ∃ n, ended.2.machine = (loop realtime c 0 n).2.2.machine := by
  cases hr : Period.rate? c.rate with
  | none =>
      rw [run_of_no_rate hr] at h
      cases h
      exact ⟨0, rfl⟩
  | some rate =>
      rw [run_console hr h]
      exact ⟨rounds limit patience, rfl⟩

end Console

namespace CommandLine

theorem runTo_machine {limit : Option Setting} {c : Console} {realtime : Bool} {patience : Nat}
    {ended : Except Fault Nat × Console} (h : runTo limit c realtime patience = some ended) :
    ∃ n, ended.2.machine = (Console.loop realtime c 0 n).2.2.machine := by
  unfold runTo at h
  split at h
  · exact Console.run_machine h
  · exact Console.run_machine h
  · obtain ⟨⟨answer, d⟩, hrun, rfl⟩ := Option.map_eq_some_iff.mp h
    have hm := Console.run_machine hrun
    exact hm

section Prepare

variable {o : Options} {speed : Int}

theorem openConsole_eq_ok (hs : o.speed = .number speed) {machine : Machine} {frontEnd : FrontEnd}
    {h : Host} {c : Console} (hc : openConsole o machine frontEnd h = .ok c) :
    c.machine = machine ∧ c.rate = speed.toNat := by
  rw [openConsole_of_speed hs] at hc
  split at hc
  · cases hc
  · cases hf : o.fps.given .blankRate with
    | error fault =>
        rw [hf] at hc
        cases hc
    | ok frameRate =>
        rw [hf, Except.bind, Console.create] at hc
        split at hc
        · cases hc
        · cases hc
          exact ⟨rfl, rfl⟩

theorem clock_of_loadFile {m n : Machine} {fs : FileSystem} {path : String}
    {answer : Except Fault Nat} (hl : m.loadFile fs path = (answer, n)) : n.clock = m.clock := by
  unfold Machine.loadFile at hl
  split at hl
  · cases hl
    rfl
  · next data _ =>
      cases hl
      obtain ⟨memory, hm⟩ := Machine.load_machine m (.reader data none)
      rw [hm]
      rfl

theorem prepare_eq_ok (hs : o.speed = .number speed) {fs : FileSystem} {h : Host} {source : Source}
    {opening : Opening} (hp : prepare o fs h source = .ok opening) :
    opening.console.rate = speed.toNat ∧
      opening.console.machine.clock = ⟨0, 0, 14, false⟩ := by
  unfold prepare at hp
  split at hp
  · cases hp
  · next drawn _ =>
      split at hp
      · split at hp <;> cases hp
      · next hload =>
          split at hp
          · split at hp <;> cases hp
          · split at hp
            · cases hp
            · next hopen =>
                cases hp
                obtain ⟨hmachine, hrate⟩ := openConsole_eq_ok hs hopen
                refine ⟨hrate, ?_⟩
                rw [hmachine]
                exact clock_of_loadFile hload

end Prepare

theorem div_fourteen_iff (k : Nat) : (∀ n, n / 14 = n / k) ↔ k = 14 := by
  constructor
  · intro h
    have hk : 0 < k := by
      refine Nat.pos_of_ne_zero ?_
      rintro rfl
      exact absurd (h 14) (by decide)
    -- Both counts come to one at either divisor, so neither is the larger.
    have hle : 14 ≤ k := by
      refine (Nat.div_pos_iff.mp ?_).2
      rw [h k, Nat.div_self hk]
      exact Nat.one_pos
    have hge : k ≤ 14 := by
      refine (Nat.div_pos_iff.mp ?_).2
      rw [← h 14]
      decide
    omega
  · rintro rfl n
    rfl

theorem ticks_ignore_speed {arguments : List String} {o : Options} {speed : Int}
    (ha : Options.ofArguments arguments = .ok o) (hs : o.speed = .number speed) {fs : FileSystem}
    {h : Host} {source : Source} {opening : Opening}
    (hp : prepare o fs h source = .ok opening) :
    let c := opening.console
    (∀ patience, run arguments fs h source patience =
      drive o c patience (loaded opening.size o.rom) opening.notice) ∧
    c.rate = speed.toNat ∧
    (∀ n,
      let m := (Console.loop (!o.headless) c 0 n).2.2.machine
      let seen := c.entered (!o.headless) n
      m.cycles = seen.countP Console.executes ∧
      seen.countP Console.ticks = m.cycles / 14 ∧
      Console.RunDown Machine.delay Console.setsDelay seen m ∧
      Console.RunDown Machine.sound Console.setsSound seen m) ∧
    (∀ patience ended, runTo (limit o) c (!o.headless) patience = some ended →
      ∃ n, ended.2.machine = (Console.loop (!o.headless) c 0 n).2.2.machine) ∧
    ((∀ n, n / 14 = n / (speed.toNat / 60)) ↔ 840 ≤ speed ∧ speed < 900) := by
  intro c
  obtain ⟨hrate, hclock⟩ := prepare_eq_ok hs hp
  have hcycles : c.machine.cycles = 0 := congrArg Machine.Clock.cycles hclock
  have hsince : c.machine.sinceTick = 0 := congrArg Machine.Clock.sinceTick hclock
  have hperiod : c.machine.cyclesPerTick = 14 := congrArg Machine.Clock.cyclesPerTick hclock
  have hpaced : c.machine.Paced := by
    rw [Machine.Paced, hsince, hperiod]
    decide
  have hfresh : Console.Counted c.machine [] c.machine :=
    ⟨hpaced, Machine.elapsed_of_clock rfl, Console.runDown_nil _ _ _, Console.runDown_nil _ _ _⟩
  refine ⟨?_, hrate, ?_, fun patience ended => runTo_machine, ?_⟩
  · intro patience
    rw [run, ha]
    exact (execute_eq_finish o fs h source patience).trans (by rw [hp]; rfl)
  · intro n m seen
    have hcounted : Console.Counted c.machine seen m :=
      (Console.kept_counted c.machine).loop hfresh (!o.headless) n
    have hm : m.cycles = seen.countP Console.executes := by
      rw [hcounted.elapsed.cycles_eq, hcycles, Nat.zero_add]
    refine ⟨hm, ?_, hcounted.delay, hcounted.sound⟩
    rw [(hcounted.elapsed.div_mod hcounted.paced).1, hsince, hperiod, Nat.zero_add, hm]
  · rw [div_fourteen_iff]
    omega

def fastArguments : List String := ["a.ch8", "--speed", "1000", "--mute"]

def fast : Options :=
  { Options.defaults with rom := "a.ch8", speed := .number 1000, mute := true }

/-- Sets the delay timer to five and then jumps to itself. -/
def waiting : FileSystem := fun _ => .ok [0x60, 0x05, 0xF0, 0x15, 0x12, 0x04]

theorem ofArguments_fast : Options.ofArguments fastArguments = .ok fast :=
  ofArguments_of_toOption (by decide +kernel)

theorem ticks_ignore_speed_of_thousand :
    ∃ opening, prepare fast waiting Host.idle Source.silent = .ok opening ∧
      opening.console.rate = 1000 ∧
      (opening.console.entered true 14).countP Console.ticks = 1 ∧
      ¬ ∀ n, n / 14 = n / (1000 / 60) := by
  have hcycles : (prepare fast waiting Host.idle Source.silent).toOption.map
      (fun opening => (Console.loop true opening.console 0 14).2.2.machine.cycles) = some 14 := by
    decide +kernel
  cases hp : prepare fast waiting Host.idle Source.silent with
  | error stop =>
      rw [hp] at hcycles
      cases hcycles
  | ok opening =>
      rw [hp] at hcycles
      obtain ⟨-, hrate, hrounds, -, hexact⟩ := ticks_ignore_speed ofArguments_fast rfl hp
      obtain ⟨-, hticks, -⟩ := hrounds 14
      have hm : (Console.loop true opening.console 0 14).2.2.machine.cycles = 14 :=
        Option.some.inj hcycles
      refine ⟨opening, rfl, hrate, hticks.trans (congrArg (· / 14) hm), ?_⟩
      intro h
      exact absurd (hexact.mp h).2 (by decide)

/-- A sixtieth of a second, sixteen instructions, is not over when the timers tick. -/
theorem tick_before_sixtieth :
    (prepare fast waiting Host.idle Source.silent).toOption.map (fun opening =>
      let c := opening.console
      let m := (Console.loop true c 0 14).2.2.machine
      (m.cycles, (c.entered true 14).countP Console.ticks, m.cycles / (c.rate / 60),
        m.delay.toNat)) =
      some (14, 1, 0, 4) := by
  decide +kernel

end CommandLine

end ChipEight
