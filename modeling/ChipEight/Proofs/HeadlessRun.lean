import ChipEight.Proofs.FrontEnds
import ChipEight.Proofs.WordFields

/-!
A headless command is a run of the machine and nothing else. With a recorder that has no events to
deliver and a beeper without a tone, the console's loop executes the instructions that the machine
alone would execute, and leaves the host alone (`Console.Quiet`). What the command prints is told
character by character (`Screen.ShownBy`, `CommandLine.halted_refusal`).
-/

namespace ChipEight

namespace Session

/-- How many steps succeed in a row, of at most `n`. -/
def successes (s : Session) : Nat → Nat
  | 0 => 0
  | n + 1 =>
      match s.step with
      | (.ok (), t) => t.successes n + 1
      | (.error _, _) => 0

/-- What the next step answers if its word is refused. -/
def refusal (s : Session) : Fault :=
  .unknownOpcode s.machine.fetch.toNat s.machine.pc.toNat

theorem successes_of_error {s : Session} {fault : Fault} (hm : s.machine.step = .error fault)
    (n : Nat) : s.successes n = 0 := by
  cases n with
  | zero => rfl
  | succ n => simp only [successes, step, hm]

theorem step_unheard {s : Session} (hs : s.listener = none) {turn : Turn}
    (hm : s.machine.step = .ok turn) :
    ∃ t, s.step = (.ok (), t) ∧ t.machine = turn.settled ∧ t.listener = none := by
  refine ⟨{ s with machine := turn.settled }, ?_, rfl, hs⟩
  simp only [step, hm, settle, hs]
  cases turn.edge <;> rfl

theorem successes_of_ok {s t : Session} (h : s.step = (.ok (), t)) (n : Nat) :
    s.successes (n + 1) = t.successes n + 1 ∧
      s.after (List.replicate (s.successes (n + 1)) .step) =
        t.after (List.replicate (t.successes n) .step) := by
  have hsucc : s.successes (n + 1) = t.successes n + 1 := by simp only [successes, h]
  refine ⟨hsucc, ?_⟩
  rw [hsucc, List.replicate_succ, after]
  simp only [perform, h]

theorem step_after_successes {s : Session} (hs : s.listener = none) {n : Nat}
    (hn : s.successes n ≠ n) :
    let last := s.after (List.replicate (s.successes n) .step)
    last.step.1 = .error last.refusal := by
  induction n generalizing s with
  | zero => exact absurd rfl hn
  | succ n ih =>
      cases hm : s.machine.step with
      | error fault =>
          rw [successes_of_error hm]
          simp only [List.replicate_zero, after, step, hm, Machine.step_error hm, refusal]
      | ok turn =>
          obtain ⟨t, ht, -, htl⟩ := step_unheard hs hm
          obtain ⟨hsucc, hafter⟩ := successes_of_ok ht n
          rw [hafter]
          exact ih htl (by omega)

theorem cycles_after_successes {s : Session} (hs : s.listener = none) (n : Nat) :
    (s.after (List.replicate (s.successes n) .step)).machine.cycles =
      s.machine.cycles + s.successes n := by
  induction n generalizing s with
  | zero => rfl
  | succ n ih =>
      cases hm : s.machine.step with
      | error fault =>
          rw [successes_of_error hm]
          rfl
      | ok turn =>
          obtain ⟨t, ht, htm, htl⟩ := step_unheard hs hm
          obtain ⟨hsucc, hafter⟩ := successes_of_ok ht n
          rw [hafter, hsucc, ih htl, htm, Machine.step_cycles hm]
          omega

end Session

namespace Console

/-- A console that takes nothing from its host and gives nothing to it. -/
structure Quiet (h : Host) (c : Console) : Prop where
  recorder : ∃ r, c.display = .recorder r ∧ r.pending = [] ∧ r.pollsLeft = none
  beeper : ∃ playing, c.beeper = .silent playing
  host_eq : c.host = h
  stays : c.quitRequested = false
  sleeps_eq : c.sleeps = 0

section Quiet

variable {h : Host} {c : Console}

theorem Quiet.poll (hc : Quiet h c) : c.poll = (.ok true, c) := by
  obtain ⟨⟨r, hr, hpending, hleft⟩, -, -, -, -⟩ := hc
  have hnone : (c.offer []).poll = (.ok true, c) := poll_offer hr hpending hleft nofun
  exact hnone

theorem Quiet.settle (hc : Quiet h c) (turn : Turn) : Quiet h (c.settle turn) := by
  obtain ⟨hrecorder, ⟨playing, hb⟩, hhost, hstays, hsleeps⟩ := hc
  unfold Console.settle
  cases turn.edge with
  | none => exact ⟨hrecorder, ⟨playing, hb⟩, hhost, hstays, hsleeps⟩
  | some on =>
      simp only [ring, hb]
      cases on with
      | true => exact ⟨hrecorder, ⟨true, rfl⟩, hhost, hstays, hsleeps⟩
      | false => exact ⟨hrecorder, ⟨false, rfl⟩, hhost, hstays, hsleeps⟩

theorem Quiet.countFrame (hc : Quiet h c) : Quiet h c.countFrame := by
  obtain ⟨⟨r, hr, hpending, hleft⟩, hbeeper, hhost, hstays, hsleeps⟩ := hc
  unfold Console.countFrame
  split
  · simp only [render, hr, Display.render]
    exact ⟨⟨_, rfl, hpending, hleft⟩, hbeeper, hhost, hstays, hsleeps⟩
  · exact ⟨⟨r, hr, hpending, hleft⟩, hbeeper, hhost, hstays, hsleeps⟩

theorem Quiet.step (hc : Quiet h c) :
    (∃ fault, c.machine.step = .error fault ∧ c.step = (.error fault, c)) ∨
      ∃ turn d, c.machine.step = .ok turn ∧ c.step = (.ok (), d) ∧ Quiet h d ∧
        d.machine = turn.settled := by
  rw [step_of_poll hc.poll]
  cases c.machine.step with
  | error fault => exact .inl ⟨fault, rfl, rfl⟩
  | ok turn =>
      refine .inr ⟨turn, _, rfl, rfl, (hc.settle turn).countFrame, ?_⟩
      rw [countFrame_machine, settle_machine]

theorem Quiet.silence (hc : Quiet h c) : Quiet h c.silence := by
  obtain ⟨hrecorder, ⟨playing, hb⟩, hhost, hstays, hsleeps⟩ := hc
  simp only [Console.silence, hb]
  exact ⟨hrecorder, ⟨false, rfl⟩, hhost, hstays, hsleeps⟩

theorem Quiet.close (hc : Quiet h c) :
    c.close.machine = c.machine ∧ c.close.host = h ∧ c.close.sleeps = 0 := by
  obtain ⟨⟨r, hr, -, -⟩, ⟨playing, hb⟩, hhost, -, hsleeps⟩ := hc
  simp only [Console.close, hb, hr]
  exact ⟨trivial, hhost, hsleeps⟩

theorem Quiet.loop (hc : Quiet h c) {s : Session} (hm : s.machine = c.machine)
    (hs : s.listener = none) (executed n : Nat) :
    let last := s.after (List.replicate (s.successes n) .step)
    ∃ d, Quiet h d ∧ d.machine = last.machine ∧
      Console.loop false c executed n =
        (if s.successes n = n then .limit else .fault last.refusal,
          executed + s.successes n, d) := by
  -- Console and session stand on one machine, and each round takes them to the next one together.
  induction n generalizing c s executed with
  | zero => exact ⟨c, hc, hm.symm, rfl⟩
  | succ n ih =>
      rcases hc.step with ⟨fault, hfault, hstep⟩ | ⟨turn, d, hturn, hstep, hd, hdm⟩
      · rw [← hm] at hfault
        have hnone := Session.successes_of_error hfault (n + 1)
        refine ⟨c, hc, ?_, ?_⟩
        · rw [hnone]
          exact hm.symm
        · rw [hnone, if_neg (by omega), Console.loop, hstep, Machine.step_error hfault]
          rfl
      · rw [← hm] at hturn
        obtain ⟨t, ht, htm, htl⟩ := Session.step_unheard hs hturn
        obtain ⟨hsucc, hafter⟩ := Session.successes_of_ok ht n
        obtain ⟨e, he, hem, hloop⟩ := ih hd (htm.trans hdm.symm) htl (executed + 1)
        rw [hafter, hsucc]
        refine ⟨e, he, hem, ?_⟩
        rw [Console.loop, hstep]
        simp only [hd.stays, hloop, Nat.add_right_cancel_iff, Bool.false_eq_true, if_false,
          Prod.mk.injEq, true_and, and_true]
        omega

end Quiet

end Console

/-- Options that run the machine without a window, for at most `n` instructions. -/
structure Options.RunsHeadless (o : Options) (n : Nat) : Prop where
  headless : o.headless = true
  speed : ∃ speed, o.speed = .number speed ∧ 1 ≤ speed ∧ (Period.ofRate? speed.toNat).isSome
  fps : ∃ fps, o.fps = .number fps ∧ 1 ≤ fps
  cycles : (o.cycles = none ∧ n = 10000) ∨ ∃ m, o.cycles = some (.number m) ∧ n = m.toNat

namespace CommandLine

open Console (Quiet)

section Headless

variable {o : Options} {n : Nat} {h : Host}

theorem openFrontEnd_headless (hr : o.RunsHeadless n) (h : Host) :
    ∃ frontEnd, openFrontEnd o h = (.ok frontEnd, h) ∧
      frontEnd.display = .recorder (Recorder.empty (some Recorder.defaultKeep) none) ∧
      frontEnd.beeper = .silent false ∧ frontEnd.errors = "" := by
  rw [openFrontEnd, if_pos hr.headless]
  exact ⟨_, rfl, rfl, rfl, rfl⟩

theorem limit_headless (hr : o.RunsHeadless n) :
    ∃ m : Int, limit o = some (.number m) ∧ m.toNat = n := by
  rw [limit, if_pos hr.headless]
  rcases hr.cycles with ⟨hc, rfl⟩ | ⟨m, hc, rfl⟩
  · exact ⟨headlessCycles, by rw [hc]; rfl, rfl⟩
  · exact ⟨m, by rw [hc]; rfl, rfl⟩

theorem openConsole_headless (hr : o.RunsHeadless n) (machine : Machine) (frontEnd : FrontEnd)
    (h : Host) :
    ∃ c rate, openConsole o machine frontEnd h = .ok c ∧ c.machine = machine ∧
      c.display = frontEnd.display ∧ c.beeper = frontEnd.beeper ∧ c.host = h ∧
      c.quitRequested = false ∧ c.sleeps = 0 ∧ Period.rate? c.rate = some rate := by
  obtain ⟨-, ⟨speed, hs, hone, hperiod⟩, ⟨fps, hf, hpos⟩, -⟩ := hr
  obtain ⟨rate, hrate⟩ : ∃ rate, Period.rate? speed.toNat = some rate := by
    rw [Period.ofRate?, Option.isSome_map] at hperiod
    exact Option.isSome_iff_exists.mp hperiod
  rw [openConsole_of_speed hs, if_neg (by omega), hf]
  exact ⟨_, rate, if_neg (by omega), rfl, rfl, rfl, rfl, rfl, rfl, hrate⟩

theorem runTo_quiet (hr : o.RunsHeadless n) {c : Console} (hc : Quiet h c) {rate : Float}
    (hrate : Period.rate? c.rate = some rate) {s : Session} (hm : s.machine = c.machine)
    (hs : s.listener = none) (patience : Nat) :
    let last := s.after (List.replicate (s.successes n) .step)
    ∃ d, Quiet h d ∧ d.machine = last.machine ∧
      runTo (limit o) c (!o.headless) patience =
        some (if s.successes n = n then .ok n else .error last.refusal, d) := by
  intro last
  obtain ⟨m, hlimit, rfl⟩ := limit_headless hr
  obtain ⟨d, hd, hdm, hloop⟩ := hc.loop hm hs 0 m.toNat
  refine ⟨d.silence, hd.silence, hdm, ?_⟩
  simp only [hlimit, runTo, Console.run, hrate, hr.headless, Bool.not_true, hloop]
  split
  · next hall => simp only [hall, Console.conclude, Nat.zero_add]
  · rfl

theorem drive_quiet (hr : o.RunsHeadless n) {c d : Console} (hd : Quiet h d) {s : Session}
    (hm : d.machine = s.machine) {k patience : Nat} {output : String}
    (hrun : runTo (limit o) c (!o.headless) patience =
      some (if k = n then .ok n else .error s.refusal, d)) :
    ∃ outcome, drive o c patience output "" = some outcome ∧
      outcome.exit = .returned (if k = n then 0 else 1) ∧
      outcome.output = output ++ (s.machine.screen.text ++ "\n") ∧
      outcome.errors = (if k = n then "" else halted s.refusal) ∧
      outcome.host = h ∧ outcome.sleeps = 0 := by
  obtain ⟨hmachine, hhost, hsleeps⟩ := hd.close
  simp only [drive, hrun, if_pos hr.headless, hmachine, hm]
  by_cases hall : k = n
  · simp only [if_pos hall]
    exact ⟨_, rfl, rfl, rfl, rfl, hhost, hsleeps⟩
  · simp only [if_neg hall, Session.refusal, Fault.isMachine, if_true]
    exact ⟨_, rfl, rfl, rfl, String.empty_append, hhost, hsleeps⟩

theorem halted_refusal (s : Session) :
    halted s.refusal =
      s!"[chip8] halted: Unknown opcode 0x{s.machine.fetch.hex} @ 0x{s.machine.pc.hex}\n" := by
  have hfirst : "[chip8] halted: Unknown opcode 0x" =
      "[chip8] halted: " ++ ("Unknown opcode " ++ "0x") := by decide
  have hsecond : " @ 0x" = " @ " ++ "0x" := by decide
  have hhalted : halted s.refusal = "[chip8] halted: " ++
      ("Unknown opcode " ++ Text.hexWord s.machine.fetch.toNat ++ " @ " ++
        Text.hexWord s.machine.pc.toNat) ++ "\n" := rfl
  simp only [hhalted, hfirst, hsecond, Word.hexWord_toNat, toString, String.append_assoc]

theorem loadFile_bytes (m : Machine) {fs : FileSystem} {path : String} {data : List Byte}
    (hd : fs path = .ok data) :
    m.loadFile fs path =
      (.ok (min data.length 3584), (m.load (.bytes data)).machine) := by
  have hcount : (data.splitAt Machine.programMax).1.length = min data.length 3584 := by
    rw [List.splitAt_eq, List.length_take, Nat.min_comm]
    rfl
  simp only [Machine.loadFile, hd, Machine.load, Image.read, hcount]

theorem run_eq_drive {arguments : List String} {fs : FileSystem} {data : List Byte}
    {source drawn : Source} {frontEnd : FrontEnd} {k : Host} {c : Console}
    (ho : Options.ofArguments arguments = .ok o) (hs : seeded o source = .ok drawn)
    (hd : fs o.rom = .ok data) (hf : openFrontEnd o h = (.ok frontEnd, k))
    (hc : openConsole o
      ((Machine.fresh Machine.defaultCyclesPerTick drawn).load (.bytes data)).machine frontEnd k =
        .ok c) (patience : Nat) :
    run arguments fs h source patience =
      drive o c patience (loaded (min data.length 3584) o.rom) frontEnd.errors := by
  simp only [run, ho, execute, hs, loadFile_bytes _ hd, hf, hc]

theorem headless_run_is_core_run {arguments : List String} {o : Options} {n : Nat}
    {fs : FileSystem} {data : List Byte} {source drawn : Source}
    (ho : Options.ofArguments arguments = .ok o) (hr : o.RunsHeadless n)
    (hs : seeded o source = .ok drawn) (hd : fs o.rom = .ok data) (h : Host) (patience : Nat) :
    let machine := Machine.fresh Machine.defaultCyclesPerTick drawn
    let core := Session.start (machine.load (.bytes data)).machine none
    let k := core.successes n
    let last := core.after (List.replicate k .step)
    let report := s!"[chip8] loaded {min data.length 3584} bytes from '{o.rom}'\n"
    (∃ frontEnd c d, openFrontEnd o h = (.ok frontEnd, h) ∧
      openConsole o core.machine frontEnd h = .ok c ∧
      run arguments fs h source patience = drive o c patience report "" ∧
      runTo (limit o) c (!o.headless) patience =
        some (if k = n then .ok n else .error last.refusal, d) ∧
      d.machine = last.machine ∧ last.machine.cycles = k) ∧
    (k ≠ n → last.step.1 = .error last.refusal) ∧
    ∃ outcome, run arguments fs h source patience = some outcome ∧
      outcome.exit = .returned (if k = n then 0 else 1) ∧
      outcome.output = report ++ (last.machine.screen.text ++ "\n") ∧
      last.machine.screen.ShownBy last.machine.screen.text ∧
      outcome.errors = (if k = n then "" else
        s!"[chip8] halted: Unknown opcode 0x{last.machine.fetch.hex} @ 0x{last.machine.pc.hex}\n") ∧
      outcome.host = h ∧ outcome.sleeps = 0 := by
  intro machine core k last report
  obtain ⟨frontEnd, hfront, hrecorder, hsilent, herrors⟩ := openFrontEnd_headless hr h
  obtain ⟨c, rate, hc, hmachine, hdisplay, hbeeper, hhost, hstays, hsleeps, hrate⟩ :=
    openConsole_headless hr core.machine frontEnd h
  have hquiet : Quiet h c :=
    ⟨⟨_, hdisplay.trans hrecorder, rfl, rfl⟩, ⟨_, hbeeper.trans hsilent⟩, hhost, hstays, hsleeps⟩
  have hdrive := run_eq_drive ho hs hd hfront hc patience
  rw [herrors] at hdrive
  obtain ⟨d, hended, hdm, hrun⟩ := runTo_quiet hr hquiet hrate hmachine.symm rfl patience
  refine ⟨⟨frontEnd, c, d, hfront, hc, hdrive, hrun, hdm, ?_⟩,
    Session.step_after_successes rfl, ?_⟩
  · exact (Session.cycles_after_successes rfl n).trans (Nat.zero_add k)
  · rw [hdrive, ← halted_refusal]
    obtain ⟨outcome, houtcome, hexit, houtput, hrest⟩ := drive_quiet hr hended hdm hrun
    exact ⟨outcome, houtcome, hexit, houtput, last.machine.screen.shownBy_text, hrest⟩

end Headless

def briefArguments : List String := ["a.ch8", "--headless", "--cycles", "5", "--speed", "1"]

def brief : Options :=
  { Options.defaults with
    rom := "a.ch8"
    headless := true
    cycles := some (.number 5)
    speed := .number 1 }

/-- Draws the digit 0 into the corner, and has a word behind that is no instruction. -/
def halting : List Byte := [0xD0, 0x05, 0xFF, 0xFF]

/-- The screen with the digit 0 in its corner. -/
def corner : Screen :=
  ((((Screen.blank.set 0 0xF000000000000000).set 1 0x9000000000000000).set 2
    0x9000000000000000).set 3 0x9000000000000000).set 4 0xF000000000000000

/-- The same in characters. -/
def zeroInCorner : List (List Char) :=
  [['#', '#', '#', '#'], ['#', '.', '.', '#'], ['#', '.', '.', '#'], ['#', '.', '.', '#'],
    ['#', '#', '#', '#']].map (· ++ List.replicate 60 '.') ++
  List.replicate 27 (List.replicate 64 '.')

theorem ofArguments_brief : Options.ofArguments briefArguments = .ok brief := by
  apply ofArguments_of_toOption
  decide +kernel

theorem brief_runsHeadless : brief.RunsHeadless 5 where
  headless := rfl
  speed := ⟨1, rfl, by decide, by decide +kernel⟩
  fps := ⟨60, rfl, by decide⟩
  cycles := .inr ⟨5, rfl, rfl⟩

def halts : FileSystem := fun _ => .ok halting

theorem headless_run_is_core_run_of_halting :
    ∃ outcome, run briefArguments halts Host.idle Source.silent 0 = some outcome ∧
      outcome.exit = .returned 1 ∧
      outcome.output = "[chip8] loaded 4 bytes from 'a.ch8'\n" ++
        ("\n".intercalate (zeroInCorner.map String.ofList) ++ "\n") ∧
      outcome.errors = "[chip8] halted: Unknown opcode 0xffff @ 0x0202\n" ∧
      outcome.host = Host.idle ∧ outcome.sleeps = 0 := by
  have hread : halts brief.rom = .ok halting := rfl
  have hdrawn : seeded brief Source.silent = .ok Source.silent := rfl
  obtain ⟨core, hcore⟩ : ∃ core, core = Session.start
      ((Machine.fresh Machine.defaultCyclesPerTick Source.silent).load (.bytes halting)).machine
      none := ⟨_, rfl⟩
  have hk : core.successes 5 = 1 := by
    rw [hcore]
    decide +kernel
  have hscreen : (core.after (List.replicate 1 .step)).machine.screen = corner := by
    rw [hcore]
    decide +kernel
  have hcharacters : Picture.characters corner = zeroInCorner := by decide +kernel
  have hloaded : s!"[chip8] loaded {min halting.length 3584} bytes from '{brief.rom}'\n" =
      "[chip8] loaded 4 bytes from 'a.ch8'\n" := by
    decide +kernel
  have hrefused : (core.after (List.replicate 1 .step)).machine.fetch = 0xFFFF ∧
      (core.after (List.replicate 1 .step)).machine.pc = 0x0202 := by
    rw [hcore]
    decide +kernel
  obtain ⟨-, -, outcome, hrun, hexit, houtput, -, herrors, hhost, hsleeps⟩ :=
    headless_run_is_core_run ofArguments_brief brief_runsHeadless hdrawn hread Host.idle 0
  rw [← hcore, hk] at hexit houtput herrors
  rw [hscreen, Picture.text_ofScreen, hcharacters, hloaded] at houtput
  rw [hrefused.1, hrefused.2] at herrors
  refine ⟨outcome, hrun, hexit, houtput, herrors.trans ?_, hhost, hsleeps⟩
  decide +kernel

end CommandLine

end ChipEight
