import ChipEight.CommandLine
import ChipEight.Proofs.HostLog

/-!
What a command leaves behind on the host. No tone is left sounding, and no window is left open but
by a command that opens one and is then refused its speed or its frame rate: these are looked at
once the window is there and before there is a console to close it.
-/

namespace ChipEight

namespace Host

/-- The next window that is asked for is opened. -/
structure GrantsWindow (h : Host) : Prop where
  present : h.missing = false
  accepted : ∀ message, h.videoErrors.head? ≠ some (some message)

end Host

namespace Window

theorem start_since (w : Window) {h k : Host} {o s : Bool} (hs : h.Since o s k) :
    (k.GrantsWindow ∧
        ∃ l, w.start k = (.ok (), { w with running := true }, l) ∧ h.Since true s l) ∨
      (¬ k.GrantsWindow ∧
        (w.start k = (.error .hostMissing, w, k) ∨
          ∃ message l, w.start k = (.error (.displayUnavailable message), w, l) ∧
            h.Since false s l)) := by
  unfold start
  cases hm : k.missing with
  | true =>
      refine .inr ⟨?_, .inl (if_pos rfl)⟩
      intro hg
      have := hg.present
      simp [hm] at this
  | false =>
      have ha : h.Since o s ((k.record .init).record (.caption w.title)) :=
        (hs.record rfl).record rfl
      rw [if_neg Bool.false_ne_true]
      cases hv : ((k.record .init).record (.caption w.title)).setMode w.width w.height with
      | mk result l =>
          cases result with
          | ok u =>
              obtain ⟨haccepted, hl⟩ := ha.setMode_ok hv
              exact .inl ⟨⟨hm, haccepted⟩, _, rfl, hl.record rfl⟩
          | error message =>
              obtain ⟨he, hl⟩ := ha.setMode_error hv
              exact .inr ⟨fun hg => hg.accepted message he, .inr ⟨_, _, rfl, hl.record rfl⟩⟩

theorem start_cases (w : Window) (h : Host) :
    (h.GrantsWindow ∧
        ∃ k, w.start h = (.ok (), { w with running := true }, k) ∧ h.Since true false k) ∨
      (¬ h.GrantsWindow ∧
        ∃ fault k, w.start h = (.error fault, w, k) ∧ h.Since false false k) := by
  rcases w.start_since h.since_refl with hok | ⟨hn, hk | ⟨message, k, hk, hs⟩⟩
  · exact .inl hok
  · exact .inr ⟨hn, _, _, hk, h.since_refl⟩
  · exact .inr ⟨hn, _, _, hk, hs⟩

end Window

namespace Beeper

variable {h k : Host} {w s : Bool}

theorem openMixer_since (hs : h.Since w s k) : h.Since w s k.openMixer.2 := by
  have hr : h.Since w s
      (k.record (.mixerInit Wave.sampleRate Host.sampleFormat Host.defaultChannels)) :=
    hs.record rfl
  unfold Host.openMixer
  split
  · exact hs
  · dsimp only
    split <;> exact hr

theorem create_since (hs : h.Since w s k) : h.Since w s (create k).2 := by
  have hm := openMixer_since hs
  unfold create
  split
  · exact hs
  · split
    · next he => rwa [he] at hm
    · next he =>
        rw [he] at hm
        split
        · exact hm
        · exact hm.record rfl

theorem sounding_create {b : Beeper} (hb : create h = (.ok b, k)) : b.sounding = false := by
  rw [eq_tone_of_create hb]
  rfl

end Beeper

namespace Setting

theorem given_eq_ok {s : Setting} {fault : Fault} {n : Int} (h : s.given fault = .ok n) :
    s = .number n := by
  cases s with
  | number m =>
      cases h
      rfl
  | blank => cases h

theorem given_eq_error {s : Setting} {fault given : Fault} (h : s.given fault = .error given) :
    s = .blank := by
  cases s with
  | number m => cases h
  | blank => rfl

end Setting

namespace Options

structure Loads (o : Options) (fs : FileSystem) : Prop where
  seeded : o.seed ≠ some .blank
  readable : ∃ data, fs o.rom = .ok data

structure OpensWindow (o : Options) (h : Host) : Prop where
  windowed : o.headless = false
  scaled : o.scale ≠ .blank
  granted : h.GrantsWindow

structure RatesAccepted (o : Options) : Prop where
  speed : ∃ n, o.speed = .number n ∧ 1 ≤ n
  fps : ∃ n, o.fps = .number n ∧ 1 ≤ n

/-- A window is opened, and then a rate is refused. -/
structure LeavesWindow (o : Options) (fs : FileSystem) (h : Host) : Prop where
  loads : o.Loads fs
  opens : o.OpensWindow h
  refused : ¬ o.RatesAccepted

end Options

namespace CommandLine

variable {o : Options} {h k : Host}

theorem openBeeper_since {w : Bool} (hs : h.Since w false k) (mute : Bool) :
    h.Since w false (openBeeper mute k).2.2 ∧ (openBeeper mute k).1.sounding = false := by
  have hc := Beeper.create_since hs
  unfold openBeeper
  split
  · exact ⟨hs, rfl⟩
  · split
    · next he =>
        rw [he] at hc
        exact ⟨hc, Beeper.sounding_create he⟩
    · next he =>
        rw [he] at hc
        exact ⟨hc, rfl⟩

theorem openFrontEnd_cases (o : Options) (h : Host) :
    (∃ frontEnd k, openFrontEnd o h = (.ok frontEnd, k) ∧
        h.Since frontEnd.display.running false k ∧ frontEnd.beeper.sounding = false ∧
        (frontEnd.display.running = true ↔ o.OpensWindow h)) ∨
      (¬ o.OpensWindow h ∧
        ∃ fault k, openFrontEnd o h = (.error fault, k) ∧ h.Since false false k) := by
  unfold openFrontEnd
  cases hl : o.headless with
  | true =>
      refine .inl ⟨_, _, if_pos rfl, h.since_refl, rfl, nofun, ?_⟩
      intro hw
      have := hw.windowed
      simp [hl] at this
  | false =>
      rw [if_neg Bool.false_ne_true]
      cases hg : o.scale.given .blankScale with
      | error fault =>
          have hb := Setting.given_eq_error hg
          exact .inr ⟨fun hw => hw.scaled hb, _, _, rfl, h.since_refl⟩
      | ok scale =>
          have hn : o.scale ≠ .blank := by simp [Setting.given_eq_ok hg]
          rcases (Window.create scale Window.defaultTitle).start_cases h with
            ⟨hw, l, hs, hsince⟩ | ⟨hw, fault, l, hs, hsince⟩
          · obtain ⟨hb, hq⟩ := openBeeper_since hsince o.mute
            simp only [hs]
            exact .inl ⟨_, _, rfl, hb, hq, fun _ => ⟨hl, hn, hw⟩, fun _ => rfl⟩
          · simp only [hs]
            exact .inr ⟨fun ho => hw ho.granted, _, _, rfl, hsince⟩

theorem openConsole_of_speed {speed : Int} (hs : o.speed = .number speed) (machine : Machine)
    (frontEnd : FrontEnd) (h : Host) :
    openConsole o machine frontEnd h =
      if speed < 1 then .error .rateNotPositive
      else (o.fps.given .blankRate).bind
        (Console.create machine frontEnd.display frontEnd.beeper h speed) := by
  unfold openConsole
  rw [hs]
  by_cases hl : speed < 1
  · simp [Setting.given, bind, Except.bind, hl, throw, throwThe, MonadExceptOf.throw]
  · simp [Setting.given, bind, Except.bind, hl]

theorem openConsole_cases (o : Options) (machine : Machine) (frontEnd : FrontEnd) (h : Host) :
    (o.RatesAccepted ∧ ∃ c, openConsole o machine frontEnd h = .ok c ∧
        c.display = frontEnd.display ∧ c.beeper = frontEnd.beeper ∧ c.host = h) ∨
      (¬ o.RatesAccepted ∧ ∃ fault, openConsole o machine frontEnd h = .error fault ∧
        (fault = .rateNotPositive ∨ fault = .blankRate)) := by
  cases hs : o.speed with
  | blank =>
      refine .inr ⟨?_, .blankRate, ?_, .inr rfl⟩
      · rintro ⟨⟨n, hn, -⟩, -⟩
        simp [hs] at hn
      · unfold openConsole
        rw [hs]
        rfl
  | number speed =>
      rw [openConsole_of_speed hs]
      by_cases hl : speed < 1
      · refine .inr ⟨?_, _, if_pos hl, .inl rfl⟩
        rintro ⟨⟨n, hn, hle⟩, -⟩
        rw [hs] at hn
        cases hn
        omega
      · rw [if_neg hl]
        cases hf : o.fps with
        | blank =>
            refine .inr ⟨?_, _, rfl, .inr rfl⟩
            rintro ⟨-, n, hn, -⟩
            simp [hf] at hn
        | number fps =>
            change (_ ∧ ∃ c, Console.create _ _ _ _ _ _ = _ ∧ _) ∨
              (_ ∧ ∃ fault, Console.create _ _ _ _ _ _ = _ ∧ _)
            unfold Console.create
            by_cases hn : fps < 1
            · refine .inr ⟨?_, _, if_pos (.inr hn), .inl rfl⟩
              rintro ⟨-, n, hn, hle⟩
              rw [hf] at hn
              cases hn
              omega
            · have ha : o.RatesAccepted := ⟨⟨speed, hs, by omega⟩, ⟨fps, hf, by omega⟩⟩
              exact .inl ⟨ha, _, if_neg (by omega), rfl, rfl, rfl⟩

theorem runTo_tracked {c : Console} (hc : c.Tracked h) {limit : Option Setting} {realtime : Bool}
    {patience : Nat} {ended : Except Fault Nat × Console}
    (he : runTo limit c realtime patience = some ended) : ended.2.Tracked h := by
  unfold runTo at he
  split at he
  · exact Console.run_tracked hc he
  · exact Console.run_tracked hc he
  · obtain ⟨ran, hr, rfl⟩ := Option.map_eq_some_iff.mp he
    have hd := Console.run_tracked hc hr
    exact hd

theorem drive_since {c : Console} (hc : c.Tracked h) {patience : Nat} {output errors : String}
    {outcome : Outcome} (hd : drive o c patience output errors = some outcome) :
    h.Since false false outcome.host := by
  unfold drive at hd
  split at hd
  · cases hd
  · next result d hr =>
      have hs := Console.close_since (runTo_tracked hc hr)
      dsimp only at hd
      split at hd
      · cases hd
        exact hs
      · cases hd
        exact hs
      · split at hd <;> cases hd <;> exact hs

theorem seeded_eq_error {source : Source} {fault : Fault} (hs : seeded o source = .error fault) :
    o.seed = some .blank := by
  unfold seeded at hs
  split at hs
  · cases hs
  · next seed he =>
      cases seed with
      | number n => cases hs
      | blank => exact he

theorem not_blank_of_seeded {source drawn : Source} (hs : seeded o source = .ok drawn) :
    o.seed ≠ some .blank := by
  intro hb
  simp [seeded, hb, Setting.given, Except.map] at hs

theorem loadFile_eq_error {m n : Machine} {fs : FileSystem} {path : String} {fault : Fault}
    (hl : m.loadFile fs path = (.error fault, n)) : ¬ ∃ data, fs path = .ok data := by
  rintro ⟨data, hd⟩
  simp [Machine.loadFile, hd, Machine.load, Image.read] at hl

theorem loadFile_eq_ok {m n : Machine} {fs : FileSystem} {path : String} {size : Nat}
    (hl : m.loadFile fs path = (.ok size, n)) : ∃ data, fs path = .ok data := by
  unfold Machine.loadFile at hl
  split at hl
  · cases hl
  · next data hd => exact ⟨data, hd⟩

theorem execute_cases {fs : FileSystem} {source : Source} {patience : Nat} {outcome : Outcome}
    (he : execute o fs h source patience = some outcome) :
    (o.LeavesWindow fs h ∧ h.Since true false outcome.host ∧
        (outcome.exit = .raised .rateNotPositive ∨ outcome.exit = .raised .blankRate)) ∨
      (¬ o.LeavesWindow fs h ∧ h.Since false false outcome.host) := by
  unfold execute at he
  dsimp only at he
  cases hs : seeded o source with
  | error fault =>
      simp only [hs] at he
      cases he
      exact .inr ⟨fun hw => hw.loads.seeded (seeded_eq_error hs), h.since_refl⟩
  | ok source =>
      simp only [hs] at he
      split at he
      · next hl =>
          have hw : ¬ o.LeavesWindow fs h := fun hw => loadFile_eq_error hl hw.loads.readable
          split at he <;> cases he <;> exact .inr ⟨hw, h.since_refl⟩
      · next size machine hl =>
          have hload : o.Loads fs := ⟨not_blank_of_seeded hs, loadFile_eq_ok hl⟩
          rcases openFrontEnd_cases o h with ⟨frontEnd, k, hf, hk, hq, hw⟩ | ⟨hw, fault, k, hf, hk⟩
          · simp only [hf] at he
            rcases openConsole_cases o machine frontEnd k with
              ⟨hr, c, hc, hd, hb, hh⟩ | ⟨hr, fault, hc, hx⟩
            · simp only [hc] at he
              have ht : c.Tracked h := by
                rw [Console.Tracked, hd, hb, hh, hq]
                exact hk
              exact .inr ⟨fun hl => hl.refused hr, drive_since ht he⟩
            · simp only [hc] at he
              cases he
              cases ho : frontEnd.display.running with
              | true =>
                  rw [ho] at hk
                  refine .inl ⟨⟨hload, hw.mp ho, hr⟩, hk, ?_⟩
                  rcases hx with rfl | rfl
                  · exact .inl rfl
                  · exact .inr rfl
              | false =>
                  rw [ho] at hk
                  refine .inr ⟨fun hl => ?_, hk⟩
                  simpa [ho] using hw.mpr hl.opens
          · simp only [hf] at he
            split at he <;> cases he <;> exact .inr ⟨fun hl => hw hl.opens, hk⟩

theorem run_cases {arguments : List String} {fs : FileSystem} {source : Source} {patience : Nat}
    {outcome : Outcome} (hr : run arguments fs h source patience = some outcome) :
    ((∃ o, Options.ofArguments arguments = .ok o ∧ o.LeavesWindow fs h) ∧
        h.Since true false outcome.host ∧
        (outcome.exit = .raised .rateNotPositive ∨ outcome.exit = .raised .blankRate)) ∨
      ((¬ ∃ o, Options.ofArguments arguments = .ok o ∧ o.LeavesWindow fs h) ∧
        h.Since false false outcome.host) := by
  unfold run at hr
  cases ho : Options.ofArguments arguments with
  | error refusal =>
      have hn : ¬ ∃ o : Options, Except.error refusal = .ok o ∧ o.LeavesWindow fs h := by simp
      cases refusal <;> simp only [ho] at hr <;> cases hr <;> exact .inr ⟨hn, h.since_refl⟩
  | ok o =>
      simp only [ho] at hr
      rcases execute_cases hr with ⟨hl, hs, hx⟩ | ⟨hl, hs⟩
      · exact .inl ⟨⟨o, rfl, hl⟩, hs, hx⟩
      · refine .inr ⟨?_, hs⟩
        rintro ⟨p, hp, hw⟩
        cases hp
        exact hl hw

theorem window_left_open_iff {arguments : List String} {fs : FileSystem} {source : Source}
    {patience : Nat} {outcome : Outcome} (hr : run arguments fs h source patience = some outcome) :
    ∃ calls, outcome.host.calls = h.calls ++ calls ∧
      (h.view.readAll calls).sounding = false ∧
      ((h.view.readAll calls).windowOpen = true ↔
        ∃ o, Options.ofArguments arguments = .ok o ∧ o.LeavesWindow fs h) ∧
      ((h.view.readAll calls).windowOpen = true →
        outcome.exit = .raised .rateNotPositive ∨ outcome.exit = .raised .blankRate) := by
  rcases run_cases hr with ⟨hl, ⟨calls, hc, hv⟩, hx⟩ | ⟨hl, calls, hc, hv⟩
  · refine ⟨calls, hc, ?_⟩
    rw [hv]
    exact ⟨rfl, ⟨fun _ => hl, fun _ => rfl⟩, fun _ => hx⟩
  · refine ⟨calls, hc, ?_⟩
    rw [hv]
    exact ⟨rfl, ⟨nofun, fun h => absurd h hl⟩, nofun⟩

def zeroSpeed : Options :=
  { Options.defaults with rom := "a.ch8", speed := .number 0, mute := true }

def zeroSpeedArguments : List String := ["a.ch8", "--speed", "0", "--mute"]

def jumpToItself : FileSystem := fun _ => .ok [0x12, 0x00]

theorem ofArguments_of_toOption {arguments : List String}
    (hs : (Options.ofArguments arguments).toOption = some o) :
    Options.ofArguments arguments = .ok o := by
  cases ho : Options.ofArguments arguments with
  | error refusal => simp [ho, Except.toOption] at hs
  | ok p => simpa [ho, Except.toOption] using hs

theorem ofArguments_zeroSpeed : Options.ofArguments zeroSpeedArguments = .ok zeroSpeed := by
  apply ofArguments_of_toOption
  decide +kernel

theorem zeroSpeed_leavesWindow : zeroSpeed.LeavesWindow jumpToItself Host.idle where
  loads := ⟨nofun, _, rfl⟩
  opens := ⟨rfl, nofun, rfl, nofun⟩
  refused := by
    rintro ⟨⟨n, hn, hle⟩, -⟩
    cases hn
    omega

theorem window_left_open_at_zero_speed :
    ∃ outcome calls,
      run zeroSpeedArguments jumpToItself Host.idle Source.silent 0 = some outcome ∧
        outcome.host.calls = calls ∧ (Host.idle.view.readAll calls).windowOpen = true ∧
        (Host.idle.view.readAll calls).sounding = false := by
  have hs : (run zeroSpeedArguments jumpToItself Host.idle Source.silent 0).isSome := by
    decide +kernel
  obtain ⟨outcome, hr⟩ := Option.isSome_iff_exists.mp hs
  obtain ⟨calls, hc, hq, hw, -⟩ := window_left_open_iff hr
  have ho := hw.mpr ⟨zeroSpeed, ofArguments_zeroSpeed, zeroSpeed_leavesWindow⟩
  exact ⟨outcome, calls, hr, hc, ho, hq⟩

theorem window_opened_and_never_closed :
    (run zeroSpeedArguments jumpToItself Host.idle Source.silent 0).map
        (fun outcome => (outcome.exit, outcome.host.calls)) =
      some (.raised .rateNotPositive,
        [.init, .caption "CHIP-8", .setMode 960 480, .surface 64 32 0 32]) := by
  decide +kernel

end CommandLine

end ChipEight
