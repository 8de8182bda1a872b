import ChipEight.Proofs.BeeperMaking
import ChipEight.Proofs.DeafHost
import ChipEight.Proofs.WindowClosing

/-!
A command with its beeper and without. What a command prints, how it ends, what its machine executes
and what it asks of the host besides sound is the same whether it is muted, has a mixer or has one
that fails (`CommandLine.audio_unobservable`). Only a line on its error output may be more, where a
beeper is asked for and cannot be made.
-/

namespace ChipEight

namespace CommandLine

/-- A command that is over before there is a console to run. -/
structure Stop where
  exit : Exit
  notice : String
  errors : String
  host : Host

/-- A console that is about to run, with the bytes that were loaded for it. -/
structure Opening where
  console : Console
  size : Nat
  notice : String

/-- A command up to the run of its console. What it says of its beeper is kept apart as a notice. -/
def prepare (o : Options) (fs : FileSystem) (h : Host) (source : Source) : Except Stop Opening :=
  match seeded o source with
  | .error fault => .error ⟨.raised fault, "", "", h⟩
  | .ok source =>
      match (Machine.fresh Machine.defaultCyclesPerTick source).loadFile fs o.rom with
      | (.error fault, _) =>
          if fault.isInputOutput then .error ⟨.returned 1, "", unreadable o.rom fault, h⟩
          else .error ⟨.raised fault, "", "", h⟩
      | (.ok size, machine) =>
          match openFrontEnd o h with
          | (.error fault, h) =>
              if fault.isWindow then .error ⟨.returned 1, "", noWindow fault, h⟩
              else .error ⟨.raised fault, "", "", h⟩
          | (.ok frontEnd, h) =>
              match openConsole o machine frontEnd h with
              | .error fault => .error ⟨.raised fault, frontEnd.errors, "", h⟩
              | .ok console => .ok ⟨console, size, frontEnd.errors⟩

/-- What is left of a command once it is prepared. -/
def finish (o : Options) (patience : Nat) : Except Stop Opening → Option Outcome
  | .error stop => some ⟨stop.exit, "", stop.notice ++ stop.errors, stop.host, 0, 0⟩
  | .ok opening => drive o opening.console patience (loaded opening.size o.rom) opening.notice

def notice : Except Stop Opening → String
  | .error stop => stop.notice
  | .ok opening => opening.notice

theorem execute_eq_finish (o : Options) (fs : FileSystem) (h : Host) (source : Source)
    (patience : Nat) :
    execute o fs h source patience = finish o patience (prepare o fs h source) := by
  unfold execute prepare
  cases seeded o source with
  | error fault => rfl
  | ok drawn =>
      dsimp only
      obtain ⟨loading, machine⟩ :=
        (Machine.fresh Machine.defaultCyclesPerTick drawn).loadFile fs o.rom
      cases loading with
      | error fault =>
          cases hf : fault.isInputOutput with
          | true => simp [hf, finish]
          | false => simp [hf, finish]
      | ok size =>
          obtain ⟨opened, k⟩ := openFrontEnd o h
          cases opened with
          | error fault =>
              cases hf : fault.isWindow with
              | true => simp [hf, finish]
              | false => simp [hf, finish]
          | ok frontEnd =>
              dsimp only
              cases openConsole o machine frontEnd k with
              | error fault => simp [finish]
              | ok console => rfl

def FrontEnd.deaf (f : FrontEnd) : FrontEnd := ⟨f.display, .silent false, ""⟩

theorem openBeeper_deaf (mute : Bool) (h : Host) : (openBeeper mute h).2.2.deaf = h.deaf := by
  have hc := Beeper.create_deaf h
  unfold openBeeper
  split
  · rfl
  · split
    · next he => rwa [he] at hc
    · next he => rwa [he] at hc

section Deaf

variable (o : Options)

theorem openFrontEnd_deaf (h : Host) :
    openFrontEnd { o with mute := true } h.deaf =
      ((openFrontEnd o h).1.map FrontEnd.deaf, (openFrontEnd o h).2.deaf) := by
  unfold openFrontEnd
  cases hl : o.headless with
  | true => rfl
  | false =>
      cases o.scale.given .blankScale with
      | error fault => rfl
      | ok scale =>
          simp only [Bool.false_eq_true, if_false, Window.start_deaf]
          obtain ⟨answer, window, k⟩ := (Window.create scale Window.defaultTitle).start h
          cases answer with
          | error fault => rfl
          | ok u =>
              have hk := openBeeper_deaf o.mute k
              simp only [hk]
              rfl

theorem create_deaf (machine : Machine) (frontEnd : FrontEnd) (h : Host) (rate frameRate : Int) :
    Console.create machine frontEnd.deaf.display frontEnd.deaf.beeper h.deaf rate frameRate =
      (Console.create machine frontEnd.display frontEnd.beeper h rate frameRate).map
        Muffling.deafen.console := by
  unfold Console.create
  split <;> rfl

theorem openConsole_deaf (machine : Machine) (frontEnd : FrontEnd) (h : Host) :
    openConsole { o with mute := true } machine frontEnd.deaf h.deaf =
      (openConsole o machine frontEnd h).map Muffling.deafen.console := by
  cases hs : o.speed with
  | blank =>
      unfold openConsole
      rw [hs]
      rfl
  | number speed =>
      rw [openConsole_of_speed hs,
        openConsole_of_speed (o := { o with speed := .number speed, mute := true }) rfl]
      split
      · rfl
      · cases hf : o.fps.given .blankRate with
        | error fault => rfl
        | ok frameRate => exact create_deaf machine frontEnd h speed frameRate

def Stop.deaf (stop : Stop) : Stop := { stop with notice := "", host := stop.host.deaf }

def Opening.deaf (opening : Opening) : Opening :=
  { opening with notice := "", console := Muffling.deafen.console opening.console }

def deafened : Except Stop Opening → Except Stop Opening
  | .error stop => .error stop.deaf
  | .ok opening => .ok opening.deaf

theorem prepare_deaf (fs : FileSystem) (h : Host) (source : Source) :
    prepare { o with mute := true } fs h.deaf source = deafened (prepare o fs h source) := by
  have hs : seeded { o with mute := true } source = seeded o source := rfl
  unfold prepare
  rw [hs, openFrontEnd_deaf]
  cases seeded o source with
  | error fault => rfl
  | ok drawn =>
      dsimp only
      obtain ⟨loading, machine⟩ :=
        (Machine.fresh Machine.defaultCyclesPerTick drawn).loadFile fs o.rom
      cases loading with
      | error fault => cases hf : fault.isInputOutput <;> simp only [hf] <;> rfl
      | ok size =>
          obtain ⟨opened, k⟩ := openFrontEnd o h
          cases opened with
          | error fault => cases hf : fault.isWindow <;> simp only [hf, Except.map] <;> rfl
          | ok frontEnd =>
              simp only [Except.map, openConsole_deaf]
              cases openConsole o machine frontEnd k with
              | error fault => rfl
              | ok console => rfl

end Deaf

/-- What two runs of a command have in common when their beeper lines are set apart. -/
structure EqualButAudio (line line' : String) (x y : Outcome) : Prop where
  exit : x.exit = y.exit
  output : x.output = y.output
  errors : ∃ rest, x.errors = line ++ rest ∧ y.errors = line' ++ rest
  calls : (x.host.calls.filter fun call => !call.isAudio) =
    y.host.calls.filter fun call => !call.isAudio
  sleeps : x.sleeps = y.sleeps
  rate : x.rate = y.rate

section Alike

variable {c d : Console}

theorem runTo_alike (h : Muffling.deafen.console c = Muffling.deafen.console d)
    (limit : Option Setting) (realtime : Bool) (patience : Nat) :
    Option.Rel
      (fun x y => x.1 = y.1 ∧ Muffling.deafen.console x.2 = Muffling.deafen.console y.2)
      (runTo limit c realtime patience) (runTo limit d realtime patience) := by
  cases limit with
  | none => exact Muffling.deafen.run h none realtime patience
  | some setting =>
      cases setting with
      | number n => exact Muffling.deafen.run h (some n) realtime patience
      | blank =>
          have hrun := Muffling.deafen.run h (some 0) realtime patience
          simp only [runTo]
          generalize c.run (some 0) realtime patience = x at hrun
          generalize d.run (some 0) realtime patience = y at hrun
          cases hrun with
          | none => exact .none
          | some hended =>
              refine .some ⟨?_, hended.2⟩
              dsimp only
              rw [hended.1]

theorem drive_alike (o : Options) (h : Muffling.deafen.console c = Muffling.deafen.console d)
    (patience : Nat) (output line line' : String) :
    Option.Rel (EqualButAudio line line') (drive o c patience output line)
      (drive o d patience output line') := by
  have hrun := runTo_alike h (limit o) (!o.headless) patience
  unfold drive
  generalize runTo (limit o) c (!o.headless) patience = x at hrun
  generalize runTo (limit o) d (!o.headless) patience = y at hrun
  cases hrun with
  | none => exact .none
  | @some x y hended =>
      obtain ⟨answer, c'⟩ := x
      obtain ⟨answer', d'⟩ := y
      obtain ⟨rfl, hc⟩ := hended
      have hclosed := Muffling.deafen.close hc
      have hrest := Muffling.deafen.eq_of_console hclosed
      have hhost : c'.close.host.deaf = d'.close.host.deaf := congrArg Console.host hclosed
      have hreport (exit : Exit) (out : String) {errors errors' : String}
          (he : ∃ rest, errors = line ++ rest ∧ errors' = line' ++ rest) :
          EqualButAudio line line'
            ⟨exit, out, errors, c'.close.host, c'.close.sleeps, c'.close.rate⟩
            ⟨exit, out, errors', d'.close.host, d'.close.sleeps, d'.close.rate⟩ := by
        refine ⟨rfl, rfl, he, Host.calls_of_deaf hhost, ?_, ?_⟩
        · rw [hrest]
        · rw [hrest]
      have hbare : ∃ rest, line = line ++ rest ∧ line' = line' ++ rest :=
        ⟨"", String.append_empty.symm, String.append_empty.symm⟩
      have hmachine : c'.close.machine = d'.close.machine := by rw [hrest]
      dsimp only
      rw [hmachine]
      cases answer with
      | ok n => exact .some (hreport _ _ hbare)
      | error fault =>
          by_cases hi : fault = .interrupted
          · subst hi
            exact .some (hreport _ _ hbare)
          · simp only
            split
            · exact .some (hreport _ _ ⟨halted fault, rfl, rfl⟩)
            · exact .some (hreport _ _ hbare)

end Alike

theorem deafened_cases {p q : Except Stop Opening} (h : deafened p = deafened q) :
    (∃ stop other, p = .error stop ∧ q = .error other ∧ stop.exit = other.exit ∧
        stop.errors = other.errors ∧ stop.host.deaf = other.host.deaf) ∨
      ∃ opening other, p = .ok opening ∧ q = .ok other ∧ opening.size = other.size ∧
        Muffling.deafen.console opening.console = Muffling.deafen.console other.console := by
  cases p with
  | error stop =>
      cases q with
      | ok opening => cases h
      | error other =>
          have hs : stop.deaf = other.deaf := Except.error.inj h
          simp only [Stop.deaf, Stop.mk.injEq, true_and] at hs
          exact .inl ⟨stop, other, rfl, rfl, hs⟩
  | ok opening =>
      cases q with
      | error stop => cases h
      | ok other =>
          have ho : opening.deaf = other.deaf := Except.ok.inj h
          simp only [Opening.deaf, Opening.mk.injEq, and_true] at ho
          exact .inr ⟨opening, other, rfl, rfl, ho.2, ho.1⟩

theorem finish_alike (o : Options) {p q : Except Stop Opening} (h : deafened p = deafened q)
    (patience : Nat) :
    Option.Rel (EqualButAudio (notice p) (notice q)) (finish o patience p)
      (finish o patience q) := by
  rcases deafened_cases h with
    ⟨stop, other, rfl, rfl, hexit, herrors, hhost⟩ | ⟨opening, other, rfl, rfl, hsize, hconsole⟩
  · refine .some ⟨hexit, rfl, ⟨stop.errors, rfl, ?_⟩, Host.calls_of_deaf hhost, rfl, rfl⟩
    rw [herrors]
    rfl
  · simp only [finish, hsize]
    exact drive_alike o hconsole patience _ _ _

/-- What a command says of its beeper: nothing, or one line. -/
structure Notice (o : Options) (fs : FileSystem) (h : Host) (line : String) : Prop where
  single : line = "" ∨ ∃ reason : String, line = s!"[audio] beeper unavailable: {reason}\n"
  muted : o.mute = true → line = ""
  unopened : ¬ (o.Loads fs ∧ o.OpensWindow h) → line = ""
  working : ∀ channels, h.MixerWorks channels → h.HasRoomForTone channels → line = ""
  failing : ∀ message, h.MixerFails message → o.mute = false → o.Loads fs → o.OpensWindow h →
    line = s!"[audio] beeper unavailable: {message}\n"

section Notice

variable {o : Options} {fs : FileSystem} {h : Host}

theorem notice_unopened (hn : ¬ (o.Loads fs ∧ o.OpensWindow h)) : Notice o fs h "" where
  single := .inl rfl
  muted _ := rfl
  unopened _ := rfl
  working _ _ _ := rfl
  failing _ _ _ hl ho := absurd ⟨hl, ho⟩ hn

theorem openBeeper_of_ok {k : Host} {b : Beeper} (hb : (Beeper.create k).1 = .ok b)
    (mute : Bool) : (openBeeper mute k).2.1 = "" := by
  unfold openBeeper
  split
  · rfl
  · split
    · rfl
    · next hk =>
        rw [hk] at hb
        cases hb

theorem openBeeper_of_error {k : Host} {fault : Fault}
    (hb : (Beeper.create k).1 = .error fault) {mute : Bool} (hm : mute = false) :
    (openBeeper mute k).2.1 = noBeeper fault := by
  unfold openBeeper
  rw [hm, if_neg Bool.false_ne_true]
  split
  · next hk =>
      rw [hk] at hb
      cases hb
  · next hk =>
      rw [hk] at hb
      cases hb
      rfl

theorem notice_opened {k : Host} (hopened : o.Loads fs ∧ o.OpensWindow h)
    (he : k.equipment = h.equipment) : Notice o fs h (openBeeper o.mute k).2.1 := by
  obtain ⟨hmissing, hmixer, hchannels, herror, hmemory⟩ :
      k.missing = h.missing ∧ k.mixer = h.mixer ∧ k.channels = h.channels ∧
        k.mixerError = h.mixerError ∧ k.memory = h.memory := by
    simpa [Host.equipment] using he
  have hpresent : k.missing = false := hmissing.trans hopened.2.granted.present
  have hcreate := Beeper.create_present hpresent
  constructor
  · cases hm : o.mute with
    | true => exact .inl rfl
    | false =>
        cases hb : (Beeper.create k).1 with
        | ok b => exact .inl (openBeeper_of_ok hb false)
        | error fault => exact .inr ⟨fault.message, openBeeper_of_error hb rfl⟩
  · intro hm
    rw [hm]
    rfl
  · intro hn
    exact absurd hopened hn
  · intro channels hw hroom
    obtain ⟨wave, hwave⟩ := Wave.square_tone hw.pos hw.counted hroom
    have hworks : k.MixerWorks channels :=
      ⟨by rw [hmixer, herror, hchannels]; exact hw.opens, hw.pos, hw.counted⟩
    rw [Host.openMixer_of_works hworks, Except.bind, hmemory, hwave] at hcreate
    exact openBeeper_of_ok hcreate o.mute
  · intro message hf hm _ _
    have hfails : k.MixerFails message := by
      rwa [Host.MixerFails, hmixer, herror]
    rw [Host.openMixer_of_fails hfails] at hcreate
    exact openBeeper_of_error hcreate hm

theorem openFrontEnd_notice (hl : o.Loads fs) (h : Host) :
    match (openFrontEnd o h).1 with
    | .ok frontEnd => Notice o fs h frontEnd.errors
    | .error _ => Notice o fs h "" := by
  unfold openFrontEnd
  cases hw : o.headless with
  | true => exact notice_unopened fun ho => by simpa [hw] using ho.2.windowed
  | false =>
      rw [if_neg Bool.false_ne_true]
      cases hg : o.scale.given .blankScale with
      | error fault => exact notice_unopened fun ho => ho.2.scaled (Setting.given_eq_error hg)
      | ok scale =>
          have hn : o.scale ≠ .blank := by simp [Setting.given_eq_ok hg]
          have he := (Window.create scale Window.defaultTitle).equipment_start h
          rcases (Window.create scale Window.defaultTitle).start_cases h with
            ⟨hgranted, k, hs, -⟩ | ⟨hgranted, fault, k, hs, -⟩
          · rw [hs] at he
            simp only [hs]
            exact notice_opened ⟨hl, hw, hn, hgranted⟩ he
          · simp only [hs]
            exact notice_unopened fun ho => hgranted ho.2.granted

theorem prepare_notice (o : Options) (fs : FileSystem) (h : Host) (source : Source) :
    Notice o fs h (notice (prepare o fs h source)) := by
  unfold prepare
  cases hs : seeded o source with
  | error fault => exact notice_unopened fun ho => ho.1.seeded (seeded_eq_error hs)
  | ok drawn =>
      dsimp only
      split
      · next hf =>
          have hn : ¬ (o.Loads fs ∧ o.OpensWindow h) := fun ho => loadFile_eq_error hf ho.1.readable
          split
          · exact notice_unopened hn
          · exact notice_unopened hn
      · next hf =>
          have hopen := openFrontEnd_notice ⟨not_blank_of_seeded hs, loadFile_eq_ok hf⟩ h
          split
          · next hk =>
              rw [hk] at hopen
              split
              · exact hopen
              · exact hopen
          · next hk =>
              rw [hk] at hopen
              split
              · exact hopen
              · exact hopen

end Notice

theorem audio_unobservable {a b : List String} {o : Options} {mute : Bool}
    (ha : Options.ofArguments a = .ok o) (hb : Options.ofArguments b = .ok { o with mute })
    {h k : Host} (hk : k.deaf = h.deaf) (fs : FileSystem) (source : Source) (patience : Nat) :
    let other := { o with mute }
    ∃ line line', Notice o fs h line ∧ Notice other fs k line' ∧
      Option.Rel (EqualButAudio line line') (run a fs h source patience)
        (run b fs k source patience) ∧
      Option.Rel
        (fun p q =>
          run a fs h source patience =
              drive o p.console patience (loaded p.size o.rom) p.notice ∧
            run b fs k source patience =
              drive other q.console patience (loaded q.size other.rom) q.notice ∧
            Option.Rel (fun x y => x.1 = y.1 ∧ x.2.machine = y.2.machine)
              (runTo (limit o) p.console (!o.headless) patience)
              (runTo (limit other) q.console (!other.headless) patience))
        (prepare o fs h source).toOption (prepare other fs k source).toOption := by
  intro other
  have hp := prepare_notice o fs h source
  have hq := prepare_notice other fs k source
  have hrun : run a fs h source patience = finish o patience (prepare o fs h source) := by
    simp only [run, ha, execute_eq_finish]
  have hrun' : run b fs k source patience = finish other patience (prepare other fs k source) := by
    simp only [run, hb, execute_eq_finish]
    rfl
  -- Muted and deaf, the two commands are one.
  have hdeaf : deafened (prepare o fs h source) = deafened (prepare other fs k source) := by
    rw [← prepare_deaf, ← prepare_deaf, hk]
  refine ⟨_, _, hp, hq, ?_, ?_⟩
  · rw [hrun, hrun']
    exact finish_alike o hdeaf patience
  · rw [hrun, hrun']
    rcases deafened_cases hdeaf with
      ⟨stop, stop', hx, hy, -⟩ | ⟨opening, opening', hx, hy, -, hconsole⟩
    · rw [hx, hy]
      exact .none
    · rw [hx, hy]
      refine .some ⟨rfl, rfl, ?_⟩
      have halike := runTo_alike hconsole (limit o) (!o.headless) patience
      generalize runTo (limit o) opening.console (!o.headless) patience = x at halike
      change Option.Rel _ x (runTo (limit o) opening'.console (!o.headless) patience)
      generalize runTo (limit o) opening'.console (!o.headless) patience = y at halike
      cases halike with
      | none => exact .none
      | some hended =>
          refine .some ⟨hended.1, ?_⟩
          rw [Muffling.deafen.eq_of_console hended.2]

def beeping : Options := { Options.defaults with rom := "a.ch8", cycles := some (.number 20) }

def beepingArguments : List String := ["a.ch8", "--cycles", "20"]

/-- Sets the sound timer and waits for the tone. -/
def beeps : FileSystem := fun _ => .ok [0x60, 0x05, 0xF0, 0x18, 0x12, 0x04]

def brokenMixer : Host := { Host.idle with mixerError := some "no audio device" }

theorem audio_unobservable_with_broken_mixer :
    ∃ x y, run beepingArguments beeps brokenMixer Source.silent 0 = some x ∧
      run beepingArguments beeps Host.idle Source.silent 0 = some y ∧
      x.errors = "[audio] beeper unavailable: no audio device\n" ∧ y.errors = "" ∧
      .play Beeper.forever ∈ y.host.calls ∧
      x.exit = y.exit ∧ x.output = y.output ∧ x.sleeps = y.sleeps ∧
      (x.host.calls.filter fun call => !call.isAudio) =
        y.host.calls.filter fun call => !call.isAudio := by
  have ha : Options.ofArguments beepingArguments = .ok beeping :=
    ofArguments_of_toOption (by decide +kernel)
  have hb : Options.ofArguments beepingArguments = .ok { beeping with mute := false } := ha
  have hdeaf : Host.idle.deaf = brokenMixer.deaf := by decide +kernel
  obtain ⟨line, line', hline, hline', hrel, -⟩ :=
    audio_unobservable ha hb hdeaf beeps Source.silent 0
  have hfails : brokenMixer.MixerFails "no audio device" := ⟨rfl, rfl⟩
  have hworks : Host.idle.MixerWorks 2 := ⟨.inr ⟨rfl, rfl, rfl⟩, by decide, by decide⟩
  have hroom : Host.idle.HasRoomForTone 2 := by decide
  have hsaid := hline.failing _ hfails rfl ⟨nofun, _, rfl⟩ ⟨rfl, nofun, rfl, nofun⟩
  have hquiet := hline'.working 2 hworks hroom
  have hplayed : (run beepingArguments beeps Host.idle Source.silent 0).map
      (fun y => (y.errors, decide (.play Beeper.forever ∈ y.host.calls))) = some ("", true) := by
    decide +kernel
  obtain ⟨y, hy, hshown⟩ := Option.map_eq_some_iff.mp hplayed
  obtain ⟨herrors, hplay⟩ := Prod.mk.inj hshown
  generalize hx : run beepingArguments beeps brokenMixer Source.silent 0 = broken at hrel
  rw [hy] at hrel
  cases hrel with
  | some halike =>
      obtain ⟨rest, hbroken, hworking⟩ := halike.errors
      rw [herrors, hquiet, String.empty_append] at hworking
      rw [← hworking, String.append_empty, hsaid] at hbroken
      exact ⟨_, y, rfl, hy, hbroken, herrors, of_decide_eq_true hplay, halike.exit, halike.output,
        halike.sleeps, halike.calls⟩

end CommandLine

end ChipEight
