import ChipEight.Console
import ChipEight.Proofs.Runs

/-!
What a run does round by round, and how many instructions it executes. A step that returns has
executed one instruction, unless the display asked to quit, and the answer of a run is the number of
its instructions unless it was started after a request to quit (`Console.Overruns`).
-/

namespace ChipEight

namespace Machine

theorem count_cycles (m : Machine) : m.count.settled.cycles = m.cycles + 1 := by
  simp only [count]
  split
  · rw [tick_settled]
  · rfl

theorem step_cycles {m : Machine} {turn : Turn} (h : m.step = .ok turn) :
    turn.settled.cycles = m.cycles + 1 := by
  unfold step at h
  split at h
  · cases h
    rw [count_cycles, execute_cycles]
  · cases h

end Machine

namespace Console

theorem settle_machine (c : Console) (turn : Turn) : (c.settle turn).machine = turn.settled := by
  unfold settle
  split <;> rfl

theorem settle_quitRequested (c : Console) (turn : Turn) :
    (c.settle turn).quitRequested = c.quitRequested := by
  unfold settle
  split <;> rfl

theorem countFrame_machine (c : Console) : c.countFrame.machine = c.machine := by
  unfold countFrame
  split <;> rfl

theorem countFrame_quitRequested (c : Console) : c.countFrame.quitRequested = c.quitRequested := by
  unfold countFrame
  split <;> rfl

/-- What a step that returns has done: it has asked the display, which wants to quit or lets one
instruction be executed. -/
theorem step_cases {c d : Console} (h : c.step = (.ok (), d)) :
    (c.poll.1 = .ok false ∧ d = { c.poll.2 with quitRequested := true }) ∨
      (c.poll.1 = .ok true ∧ ∃ turn, c.poll.2.machine.step = .ok turn ∧
        d = (c.poll.2.settle turn).countFrame) := by
  unfold step at h
  split at h
  · cases h
  · next polled hp =>
      cases h
      exact .inl (by simp [hp])
  · next polled hp =>
      unfold execute at h
      cases hm : polled.machine.step with
      | error fault => simp [hm] at h
      | ok turn =>
          simp only [hm, Prod.mk.injEq, true_and] at h
          exact .inr ⟨by simp [hp], turn, by simpa [hp] using hm, by simp [hp, h]⟩

theorem step_quits {c d : Console} (h : c.step = (.ok (), d)) (hp : c.poll.1 = .ok false) :
    d.machine.cycles = c.machine.cycles ∧ d.quitRequested = true := by
  rcases step_cases h with ⟨-, rfl⟩ | ⟨ht, -⟩
  · exact ⟨rfl, rfl⟩
  · rw [hp] at ht
    cases ht

theorem step_executes {c d : Console} (h : c.step = (.ok (), d)) (hp : c.poll.1 ≠ .ok false) :
    c.poll.1 = .ok true ∧ d.machine.cycles = c.machine.cycles + 1 ∧
      d.quitRequested = c.quitRequested := by
  rcases step_cases h with ⟨hf, -⟩ | ⟨ht, turn, hm, rfl⟩
  · exact absurd hf hp
  · refine ⟨ht, ?_, ?_⟩
    · rw [countFrame_machine, settle_machine, Machine.step_cycles hm]
      rfl
    · rw [countFrame_quitRequested, settle_quitRequested]
      rfl

theorem loop_succ {realtime : Bool} {c d : Console} {executed n k : Nat} {e : Ending}
    (h : loop realtime c executed (n + 1) = (e, k, d)) (he : ∀ f, e ≠ .fault f) :
    ∃ b, c.step = (.ok (), b) ∧
      ((b.quitRequested = true ∧ k = executed ∧ d = b) ∨
        (b.quitRequested = false ∧
          loop realtime (if realtime then b.sleep else b) (executed + 1) n = (e, k, d))) := by
  rw [loop] at h
  split at h
  · cases h
    exact absurd rfl (he _)
  · next b hs =>
      refine ⟨b, hs, ?_⟩
      cases hb : b.quitRequested with
      | true =>
          rw [if_pos hb] at h
          cases h
          exact .inl ⟨rfl, rfl, rfl⟩
      | false =>
          rw [if_neg (by simp [hb])] at h
          exact .inr ⟨rfl, h⟩

/-- The invariant of the loop while nobody has asked to quit. -/
theorem loop_length {realtime : Bool} {c d : Console} {executed n k : Nat} {e : Ending}
    (hq : c.quitRequested = false) (h : loop realtime c executed n = (e, k, d))
    (he : ∀ f, e ≠ .fault f) : d.machine.cycles + executed = c.machine.cycles + k := by
  induction n generalizing c executed with
  | zero =>
      cases h
      rfl
  | succ n ih =>
      obtain ⟨b, hs, hb⟩ := loop_succ h he
      by_cases hp : c.poll.1 = .ok false
      · obtain ⟨hc, hq'⟩ := step_quits hs hp
        rcases hb with ⟨-, rfl, rfl⟩ | ⟨hb, -⟩
        · rw [hc]
        · rw [hq'] at hb
          cases hb
      · obtain ⟨-, hc, hq'⟩ := step_executes hs hp
        rcases hb with ⟨hb, -⟩ | ⟨hb, hl⟩
        · rw [hq', hq] at hb
          cases hb
        · have hn : (if realtime then b.sleep else b).quitRequested = false := by
            cases realtime <;> exact hb
          have hm : (if realtime then b.sleep else b).machine = b.machine := by
            cases realtime <;> rfl
          have := ih hn hl
          rw [hm] at this
          omega

/-- After a request to quit the loop ends with its first step, which it does not count. -/
theorem loop_of_quitRequested {realtime : Bool} {c d : Console} {executed n k : Nat} {e : Ending}
    (hq : c.quitRequested = true) (h : loop realtime c executed (n + 1) = (e, k, d))
    (he : ∀ f, e ≠ .fault f) : c.step = (.ok (), d) ∧ k = executed := by
  obtain ⟨b, hs, ⟨-, rfl, rfl⟩ | ⟨hb, -⟩⟩ := loop_succ h he
  · exact ⟨hs, rfl⟩
  · by_cases hp : c.poll.1 = .ok false
    · rw [(step_quits hs hp).2] at hb
      cases hb
    · rw [(step_executes hs hp).2.2, hq] at hb
      cases hb

/-- One more round of a loop does what a step does, or nothing once the loop is over. -/
theorem loop_round {R : Console → Console → Prop} (hrefl : ∀ c, R c c) (hstep : ∀ c, R c c.step.2)
    (hsleep : ∀ c d, R c d → R c d.sleep) (realtime : Bool) (c : Console) (executed n : Nat) :
    R (loop realtime c executed n).2.2 (loop realtime c executed (n + 1)).2.2 := by
  -- The two loops agree in every round but the last, which is the first of all when `n` is zero.
  induction n generalizing c executed with
  | zero =>
      have hs := hstep c
      rw [loop, loop]
      split
      · next h => rwa [h] at hs
      · next d h =>
          rw [h] at hs
          split
          · exact hs
          · cases realtime with
            | false => exact hs
            | true => exact hsleep c d hs
  | succ n ih =>
      rw [loop, loop]
      split
      · exact hrefl _
      · split
        · exact hrefl _
        · exact ih _ _

theorem loop_preserves {P : Console → Prop} (hstep : ∀ c, P c → P c.step.2)
    (hsleep : ∀ c, P c → P c.sleep) {c : Console} (hc : P c) (realtime : Bool) (executed n : Nat) :
    P (loop realtime c executed n).2.2 := by
  induction n with
  | zero => exact hc
  | succ n ih =>
      refine loop_round (R := fun c d => P c → P d) (fun _ h => h) hstep ?_ realtime c executed n ih
      intro c d hd h
      exact hsleep d (hd h)

theorem conclude_eq_ok {e : Ending} {n k : Nat} {c d : Console}
    (h : conclude (e, n, c) = (.ok k, d)) : (∀ f, e ≠ .fault f) ∧ k = n ∧ d = c.silence := by
  cases e with
  | fault f => cases h
  | _ =>
      cases h
      exact ⟨fun f => by simp, rfl, rfl⟩

theorem conclude_console (ended : Ending × Nat × Console) :
    (conclude ended).2 = ended.2.2.silence := by
  obtain ⟨e, n, c⟩ := ended
  cases e <;> rfl

def rounds (limit : Option Int) (patience : Nat) : Nat :=
  match limit with
  | some n => n.toNat
  | none => patience

theorem run_of_no_rate {c : Console} (h : Period.rate? c.rate = none) (limit : Option Int)
    (realtime : Bool) (patience : Nat) :
    c.run limit realtime patience = some (.error .rateTooLarge, c) := by
  simp only [run, h]

theorem run_console {c : Console} {rate : Float} (hr : Period.rate? c.rate = some rate)
    {limit : Option Int} {realtime : Bool} {patience : Nat} {ended : Except Fault Nat × Console}
    (h : c.run limit realtime patience = some ended) :
    ended.2 = (loop realtime c 0 (rounds limit patience)).2.2.silence := by
  simp only [run, hr] at h
  cases limit with
  | some n =>
      cases h
      exact conclude_console _
  | none =>
      simp only at h
      split at h
      · cases h
      · cases h
        exact conclude_console _

theorem run_preserves {P : Console → Prop} (hstep : ∀ c, P c → P c.step.2)
    (hsleep : ∀ c, P c → P c.sleep) (hsilence : ∀ c, P c → P c.silence) {c : Console} (hc : P c)
    {limit : Option Int} {realtime : Bool} {patience : Nat} {ended : Except Fault Nat × Console}
    (h : c.run limit realtime patience = some ended) : P ended.2 := by
  cases hr : Period.rate? c.rate with
  | none =>
      rw [run_of_no_rate hr] at h
      cases h
      exact hc
  | some rate =>
      rw [run_console hr h]
      exact hsilence _ (loop_preserves hstep hsleep hc realtime 0 _)

/-- A run that returns is a loop, of no round at all only if its limit asks for none. -/
theorem run_cases {c d : Console} {limit : Option Int} {realtime : Bool} {patience k : Nat}
    (h : c.run limit realtime patience = some (.ok k, d)) :
    ∃ n e b, loop realtime c 0 n = (e, k, b) ∧ (∀ f, e ≠ .fault f) ∧ d = b.silence ∧
      (n = 0 ↔ ∃ m, limit = some m ∧ m ≤ 0) := by
  unfold run at h
  split at h
  · cases h
  · split at h
    · next m =>
        obtain ⟨he, hk, hd⟩ := conclude_eq_ok (Option.some.inj h)
        exact ⟨m.toNat, _, _, by rw [hk], he, hd, by simp⟩
    · split at h
      · cases h
      · next ended hne =>
          obtain ⟨he, hk, hd⟩ := conclude_eq_ok (Option.some.inj h)
          refine ⟨patience, _, _, by rw [hk], he, hd, ?_⟩
          simp
          rintro rfl
          exact hne 0 c rfl

/-- A run that was started after a request to quit and whose display lets it go on. -/
structure Overruns (c : Console) (limit : Option Int) : Prop where
  quitRequested : c.quitRequested = true
  allowed : ∀ n, limit = some n → 0 < n
  stays : c.poll.1 = .ok true

theorem run_length {c d : Console} {limit : Option Int} {realtime : Bool} {patience k : Nat}
    (h : c.run limit realtime patience = some (.ok k, d)) :
    (d.machine.cycles = c.machine.cycles + k ↔ ¬ c.Overruns limit) ∧
      (c.Overruns limit → k = 0 ∧ d.machine.cycles = c.machine.cycles + 1) := by
  obtain ⟨n, e, b, hl, he, rfl, hn⟩ := run_cases h
  change (b.machine.cycles = _ ↔ _) ∧ (_ → _ ∧ b.machine.cycles = _)
  by_cases ho : c.Overruns limit
  · obtain ⟨n, rfl⟩ : ∃ m, n = m + 1 := by
      refine Nat.exists_eq_succ_of_ne_zero fun h0 => ?_
      obtain ⟨m, hm, hle⟩ := hn.mp h0
      have := ho.allowed m hm
      omega
    obtain ⟨hs, rfl⟩ := loop_of_quitRequested ho.quitRequested hl he
    have hc := (step_executes hs (by simp [ho.stays])).2.1
    simp [ho, hc]
  · have hc : b.machine.cycles = c.machine.cycles + k := by
      cases hq : c.quitRequested with
      | false => simpa using loop_length hq hl he
      | true =>
          cases n with
          | zero =>
              cases hl
              rfl
          | succ n =>
              obtain ⟨hs, rfl⟩ := loop_of_quitRequested hq hl he
              by_cases hp : c.poll.1 = .ok false
              · exact (step_quits hs hp).1
              · refine absurd ⟨hq, ?_, (step_executes hs hp).1⟩ ho
                intro m hm
                have : ¬ m ≤ 0 := fun hle => by simpa using hn.mpr ⟨m, hm, hle⟩
                omega
    simp [ho, hc]

/-- A jump to itself, in a window that was asked to close and is asked nothing more. -/
def overrunning : Console where
  machine := ((Machine.fresh 14 Source.silent).load (.bytes [0x12, 0x00])).machine
  display := .window { Window.create Window.defaultScale Window.defaultTitle with running := true }
  beeper := .silent false
  host := Host.idle
  rate := 850
  cyclesPerFrame := 14
  sinceFrame := 0
  quitRequested := true
  sleeps := 0

theorem overruns_overrunning : overrunning.Overruns (some 5) :=
  ⟨rfl, fun n hn => by cases hn; decide, rfl⟩

theorem run_length_overrunning :
    ∃ d, overrunning.run (some 5) false 0 = some (.ok 0, d) ∧
      d.machine.cycles = overrunning.machine.cycles + 1 := by
  have hs : (overrunning.run (some 5) false 0).isSome := by decide +kernel
  obtain ⟨⟨answer, d⟩, h⟩ := Option.isSome_iff_exists.mp hs
  have ha : (overrunning.run (some 5) false 0).map (·.1.toOption) = some (some 0) := by
    decide +kernel
  rw [h] at ha
  cases answer with
  | error fault => simp [Except.toOption] at ha
  | ok k =>
      obtain ⟨rfl, hc⟩ := (run_length h).2 overruns_overrunning
      exact ⟨d, h, hc⟩

theorem run_after_quit_uncounted :
    (do
      let machine := ((Machine.fresh 14 Source.silent).load (.bytes [0x12, 0x00])).machine
      let window := Display.window (Window.create Window.defaultScale Window.defaultTitle)
      let host := { Host.idle with batches := [[.quit]] }
      let c ← (create machine window (.silent false) host 850 60).toOption
      let (first, d) ← c.start.2.run (some 5) false 0
      let (second, e) ← d.run (some 5) false 0
      return (first.toOption, d.machine.cycles, second.toOption, e.machine.cycles)) =
        some (some 0, 0, some 0, 1) := by
  decide +kernel

end Console

end ChipEight
