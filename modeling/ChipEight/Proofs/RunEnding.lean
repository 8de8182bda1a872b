import ChipEight.Proofs.HostLog

/-!
How a run ends. Whatever ends its loop, the limit, the display or a fault, the beeper is stopped
behind it and no tone is left on the host. Only a rate that is too large for a period is refused
before the loop, and then a beeper that was playing plays on.
-/

namespace ChipEight

theorem Period.rate?_eq_none_iff (n : Nat) : rate? n = none ↔ tooLarge ≤ n := by
  unfold rate?
  split
  · next hn => simp [hn]
  · next hn => simp [Nat.le_of_not_lt hn]

def Fault.of? {α : Type} : Except Fault α → Option Fault
  | .ok _ => none
  | .error fault => some fault

theorem Fault.of?_eq_some {α : Type} {answer : Except Fault α} {fault : Fault}
    (h : of? answer = some fault) : answer = .error fault := by
  cases answer with
  | ok a => cases h
  | error given =>
      cases h
      rfl

/-- Whether a fault is one that a step of a console can come to. -/
def Fault.isOfStep : Fault → Bool
  | .unknownOpcode _ _ => true
  | .keyOutOfRange _ => true
  | .interrupted => true
  | _ => false

theorem Keypad.setKey_error {k : Keypad} {key : Int} {pressed : Bool} {fault : Fault}
    (h : k.setKey key pressed = .error fault) : fault.isOfStep = true := by
  unfold setKey at h
  split at h
  · cases h
  · cases h
    rfl

theorem Recorder.deliver_error {pending : List (Int × Bool)} {k : Keypad} {fault : Fault}
    (h : (deliver pending k).1 = .error fault) : fault.isOfStep = true := by
  induction pending generalizing k with
  | nil => cases h
  | cons event pending ih =>
      obtain ⟨key, pressed⟩ := event
      rw [deliver] at h
      split at h
      · exact ih h
      · next hk =>
          cases h
          exact Keypad.setKey_error hk

theorem Recorder.poll_error {r : Recorder} {k : Keypad} {fault : Fault}
    (h : (r.poll k).1 = .error fault) : fault.isOfStep = true := by
  unfold poll at h
  split at h
  · cases h
  · cases hd : (deliver r.pending k).1 with
    | ok u =>
        simp only [hd, Except.map] at h
        cases h
    | error given =>
        simp only [hd, Except.map] at h
        cases h
        exact deliver_error hd

theorem Host.events_error {h : Host} {fault : Fault} (he : h.events.1 = .error fault) :
    fault = .interrupted := by
  unfold events at he
  split at he
  · cases he
  · dsimp only at he
    split at he
    · cases he
      rfl
    · cases he

theorem Window.poll_error {w : Window} {h : Host} {k : Keypad} {fault : Fault}
    (hp : (w.poll h k).1 = .error fault) : fault.isOfStep = true := by
  unfold poll at hp
  split at hp
  · split at hp
    · next given l he =>
        cases hp
        have hi : fault = .interrupted := Host.events_error (congrArg Prod.fst he)
        rw [hi]
        rfl
    · cases hp
  · cases hp

theorem Display.poll_error {d : Display} {h : Host} {k : Keypad} {fault : Fault}
    (hp : (d.poll h k).result = .error fault) : fault.isOfStep = true := by
  cases d with
  | window w => exact Window.poll_error hp
  | recorder r => exact Recorder.poll_error hp

namespace Console

theorem step_error {c d : Console} {fault : Fault} (h : c.step = (.error fault, d)) :
    fault.isOfStep = true := by
  unfold step at h
  split at h
  · next hp =>
      cases h
      exact Display.poll_error (congrArg Prod.fst hp)
  · cases h
  · next polled hp =>
      unfold execute at h
      cases hm : polled.machine.step with
      | error given =>
          simp only [hm] at h
          cases h
          rw [Machine.step_error hm]
          rfl
      | ok turn =>
          simp only [hm] at h
          cases h

theorem loop_fault {realtime : Bool} {c : Console} {executed n : Nat} {fault : Fault}
    (h : (loop realtime c executed n).1 = .fault fault) : fault.isOfStep = true := by
  induction n generalizing c executed with
  | zero => cases h
  | succ n ih =>
      rw [loop] at h
      split at h
      · next given d hs =>
          cases h
          exact step_error hs
      · split at h
        · cases h
        · exact ih h

theorem conclude_error {ended : Ending × Nat × Console} {fault : Fault}
    (h : (conclude ended).1 = .error fault) : ended.1 = .fault fault := by
  obtain ⟨e, n, c⟩ := ended
  cases e with
  | fault given =>
      cases h
      rfl
  | limit => cases h
  | quit => cases h

theorem run_error {c : Console} {rate : Float} (hr : Period.rate? c.rate = some rate)
    {limit : Option Int} {realtime : Bool} {patience : Nat} {ended : Except Fault Nat × Console}
    (h : c.run limit realtime patience = some ended) {fault : Fault}
    (hf : ended.1 = .error fault) : fault.isOfStep = true := by
  simp only [run, hr] at h
  cases limit with
  | some n =>
      cases h
      exact loop_fault (conclude_error hf)
  | none =>
      dsimp only at h
      split at h
      · cases h
      · cases h
        exact loop_fault (conclude_error hf)

theorem beeper_playing_after_run {c : Console} {limit : Option Int} {realtime : Bool}
    {patience : Nat} {ended : Except Fault Nat × Console}
    (h : c.run limit realtime patience = some ended) :
    (ended.2.beeper.playing = true ↔ c.beeper.playing = true ∧ Period.tooLarge ≤ c.rate) ∧
      (Period.tooLarge ≤ c.rate → ended = (.error .rateTooLarge, c)) ∧
      (c.rate < Period.tooLarge → ∀ fault, ended.1 = .error fault → fault.isOfStep = true) ∧
      ∀ k, c.Tracked k → ∃ calls, ended.2.host.calls = k.calls ++ calls ∧
        ((k.view.readAll calls).sounding = true ↔
          c.beeper.sounding = true ∧ Period.tooLarge ≤ c.rate) := by
  have htracked : ∀ k, c.Tracked k → ended.2.Tracked k := by
    intro k hk
    exact run_tracked hk h
  cases hr : Period.rate? c.rate with
  | none =>
      have hlarge := (Period.rate?_eq_none_iff c.rate).mp hr
      rw [run_of_no_rate hr] at h
      obtain rfl := Option.some.inj h
      refine ⟨(and_iff_left hlarge).symm, fun _ => rfl, ?_, ?_⟩
      · intro hn
        omega
      · intro k hk
        obtain ⟨calls, hcalls, hview⟩ := htracked k hk
        refine ⟨calls, hcalls, ?_⟩
        rw [hview]
        exact (and_iff_left hlarge).symm
  | some rate =>
      have hsmall : ¬ Period.tooLarge ≤ c.rate := by
        intro hn
        rw [(Period.rate?_eq_none_iff c.rate).mpr hn] at hr
        cases hr
      have hsilent := run_console hr h
      refine ⟨?_, fun hn => absurd hn hsmall, fun _ fault => run_error hr h, ?_⟩
      · rw [hsilent]
        have hstopped := Beeper.playing_stop
          (loop realtime c 0 (rounds limit patience)).2.2.beeper
          (loop realtime c 0 (rounds limit patience)).2.2.host
        exact iff_of_false (Bool.eq_false_iff.mp hstopped) fun hp => hsmall hp.2
      · intro k hk
        obtain ⟨calls, hcalls, hview⟩ := htracked k hk
        refine ⟨calls, hcalls, ?_⟩
        rw [hview, hsilent]
        have hstopped := Beeper.sounding_stop
          (loop realtime c 0 (rounds limit patience)).2.2.beeper
          (loop realtime c 0 (rounds limit patience)).2.2.host
        exact iff_of_false (Bool.eq_false_iff.mp hstopped) fun hp => hsmall hp.2

/-- A tone that is on when a run begins, and a word behind one instruction that is none. -/
def sounding : Console where
  machine := ((Machine.fresh 1 Source.silent).load (.bytes [0x60, 0x01, 0xFF, 0xFF])).machine
  display := .recorder (Recorder.empty (some Recorder.defaultKeep) none)
  beeper := .tone true
  host := Host.idle.record (.play Beeper.forever)
  rate := 850
  cyclesPerFrame := 14
  sinceFrame := 0
  quitRequested := false
  sleeps := 0

theorem beeper_playing_after_run_of_halted :
    ∃ d calls,
      sounding.run (some 5) true 0 = some (.error (.unknownOpcode 0xFFFF 0x202), d) ∧
        sounding.beeper.playing = true ∧ d.beeper.playing = false ∧ d.host.calls = calls ∧
        (Host.idle.view.readAll calls).sounding = false := by
  have hended : (sounding.run (some 5) true 0).map (fun ended => Fault.of? ended.1) =
      some (some (.unknownOpcode 0xFFFF 0x202)) := by
    decide +kernel
  obtain ⟨⟨answer, d⟩, hrun, hfault⟩ := Option.map_eq_some_iff.mp hended
  obtain rfl := Fault.of?_eq_some hfault
  obtain ⟨hplaying, -, -, htracked⟩ := beeper_playing_after_run hrun
  have hrate : ¬ Period.tooLarge ≤ sounding.rate := by decide +kernel
  have hlog : sounding.Tracked Host.idle := ⟨[.play Beeper.forever], rfl, rfl⟩
  obtain ⟨calls, hcalls, hsounds⟩ := htracked Host.idle hlog
  refine ⟨d, calls, hrun, rfl, ?_, hcalls, ?_⟩
  · refine Bool.eq_false_iff.mpr ?_
    intro hp
    exact hrate (hplaying.mp hp).2
  · refine Bool.eq_false_iff.mpr ?_
    intro hs
    exact hrate (hsounds.mp hs).2

theorem beeper_playing_after_run_too_fast :
    (do
      let display := Display.recorder (Recorder.empty (some Recorder.defaultKeep) none)
      let c ← (create (Machine.fresh 14 Source.silent) display (.silent false) Host.idle
        Period.tooLarge 60).toOption
      let (answer, d) ← (c.ring true).run (some 0) false 0
      return ((c.ring true).beeper.playing, Fault.of? answer, d.beeper.playing)) =
        some (true, some .rateTooLarge, true) := by
  decide +kernel

end Console

end ChipEight
