import ChipEight.Proofs.ConsoleHistory

/-!
When frames are rendered. A console with a recorder renders the screen right behind every
`cyclesPerFrame`-th instruction that it completes, over any list of deeds and in the middle of every
run, and its recorder keeps the latest of these frames (`Console.OnSchedule`).
-/

namespace ChipEight

namespace Recorder

/-- The last of some frames, as many as are to be kept. -/
def latest (keep : Option Nat) (frames : List Screen) : List Screen :=
  match keep with
  | none => frames
  | some n => frames.drop (frames.length - n)

theorem latest_some (n : Nat) (frames : List Screen) :
    latest (some n) frames = (frames.reverse.take n).reverse := by
  rw [List.take_reverse, List.reverse_reverse]
  rfl

/-- The recorder has counted these frames and keeps the last of them. -/
structure Shows (r : Recorder) (keep : Option Nat) (frames : List Screen) : Prop where
  keep_eq : r.keep = keep
  frames_eq : r.frames = frames.length
  snapshots_eq : r.snapshots = latest keep frames

section Shows

variable {r : Recorder} {keep : Option Nat} {frames : List Screen}

theorem Shows.render (h : r.Shows keep frames) (s : Screen) :
    (r.render s).Shows keep (frames ++ [s]) := by
  obtain ⟨hkeep, hcount, hkept⟩ := h
  refine ⟨hkeep, ?_, ?_⟩
  · rw [List.length_append, ← hcount]
    rfl
  · have hlatest : r.kept = (latest keep frames).reverse := by
      rw [← hkept, snapshots, List.reverse_reverse]
    subst hkeep
    cases hk : r.keep with
    | none =>
        rw [hk] at hlatest
        simp only [snapshots, Recorder.render, hk, hlatest, latest, List.reverse_cons,
          List.reverse_reverse]
    | some n =>
        rw [hk, latest_some, List.reverse_reverse] at hlatest
        simp only [snapshots, Recorder.render, hk, hlatest, latest_some, List.reverse_append,
          List.reverse_singleton, List.singleton_append]
        -- The oldest kept frame falls out only where the new one takes the last place.
        cases n with
        | zero => rfl
        | succ n =>
            rw [List.take_succ_cons, List.take_succ_cons, List.take_take,
              Nat.min_eq_left n.le_succ]

theorem Shows.poll (h : r.Shows keep frames) (k : Keypad) : (r.poll k).2.1.Shows keep frames := by
  unfold Recorder.poll
  split
  · exact h
  · exact ⟨h.keep_eq, h.frames_eq, h.snapshots_eq⟩

theorem eq_empty_of_create {keep : Option Int} {pollsLeft : Option Nat}
    (h : create keep pollsLeft = .ok r) : r = empty (keep.map Int.toNat) pollsLeft := by
  unfold create at h
  split at h
  · cases h
    rfl
  · split at h
    · cases h
    · split at h
      · cases h
      · cases h
        rfl

theorem shows_empty (keep pollsLeft : Option Nat) : (empty keep pollsLeft).Shows keep [] := by
  refine ⟨rfl, rfl, ?_⟩
  cases keep with
  | none => rfl
  | some n => exact List.drop_nil.symm

end Shows

end Recorder

theorem succ_div_mod_of_due {p e : Nat} (hp : 0 < p) (h : p ≤ e % p + 1) :
    (e + 1) / p = e / p + 1 ∧ (e + 1) % p = 0 ∧ p * (e / p + 1) = e + 1 := by
  have hlt := Nat.mod_lt e hp
  have hsplit := Nat.div_add_mod e p
  have hwhole : p * (e / p + 1) = e + 1 := by
    rw [Nat.mul_add, Nat.mul_one]
    omega
  have hunique := (Nat.div_mod_unique hp).mpr ⟨(Nat.zero_add _).trans hwhole, hp⟩
  exact ⟨hunique.1, hunique.2, hwhole⟩

theorem succ_div_mod_of_not_due {p e : Nat} (hp : 0 < p) (h : ¬ p ≤ e % p + 1) :
    (e + 1) / p = e / p ∧ (e + 1) % p = e % p + 1 := by
  have hsplit := Nat.mod_add_div e p
  exact (Nat.div_mod_unique hp).mpr ⟨by omega, by omega⟩

/-- The frames are every `period`-th of the screens. -/
structure EveryNth (period : Nat) (frames screens : List Screen) : Prop where
  length_eq : frames.length = screens.length / period
  getElem?_eq : ∀ j < frames.length, frames[j]? = screens[period * (j + 1) - 1]?

namespace EveryNth

variable {period : Nat} {frames screens : List Screen}

theorem getElem?_concat (hp : 0 < period) (h : EveryNth period frames screens) (s : Screen)
    {j : Nat}
    (hj : j < frames.length) : frames[j]? = (screens ++ [s])[period * (j + 1) - 1]? := by
  have hle : period * (j + 1) ≤ screens.length := by
    rw [h.length_eq] at hj
    exact Nat.le_trans (Nat.mul_le_mul_left period hj) (Nat.mul_div_le _ _)
  have hpos : 0 < period * (j + 1) := Nat.mul_pos hp j.succ_pos
  rw [h.getElem?_eq j hj, List.getElem?_append_left (by omega)]

theorem due (hp : 0 < period) (h : EveryNth period frames screens)
    (hdue : period ≤ screens.length % period + 1) (s : Screen) :
    EveryNth period (frames ++ [s]) (screens ++ [s]) := by
  obtain ⟨hdiv, -, hwhole⟩ := succ_div_mod_of_due hp hdue
  constructor
  · rw [List.length_append, List.length_append, h.length_eq]
    exact hdiv.symm
  · intro j hj
    by_cases hlt : j < frames.length
    · rw [List.getElem?_append_left hlt]
      exact h.getElem?_concat hp s hlt
    · obtain rfl : j = frames.length := by
        rw [List.length_append, List.length_singleton] at hj
        omega
      rw [List.getElem?_concat_length, h.length_eq, hwhole, Nat.add_sub_cancel,
        List.getElem?_concat_length]

theorem early (hp : 0 < period) (h : EveryNth period frames screens)
    (hdue : ¬ period ≤ screens.length % period + 1) (s : Screen) :
    EveryNth period frames (screens ++ [s]) := by
  constructor
  · rw [List.length_append, List.length_singleton, h.length_eq, (succ_div_mod_of_not_due hp hdue).1]
  · intro j hj
    exact h.getElem?_concat hp s hj

end EveryNth

namespace Console

/-- The screens right after the instructions that some steps complete. -/
def screens (seen : List Console) : List Screen := seen.filterMap screen?

/-- The frames that some steps render. -/
def frames (seen : List Console) : List Screen := seen.filterMap frame?

theorem screens_concat (seen : List Console) (c : Console) :
    screens (seen ++ [c]) = screens seen ++ c.screen?.toList :=
  filterMap_concat screen? seen c

theorem frames_concat (seen : List Console) (c : Console) :
    frames (seen ++ [c]) = frames seen ++ c.frame?.toList :=
  filterMap_concat frame? seen c

theorem poll_recorder {c : Console} {r : Recorder} (h : c.display = .recorder r) :
    c.poll.2.display = .recorder (r.poll c.machine.keypad).2.1 := by
  simp only [poll, h, Display.poll]

theorem countFrame_recorder {c : Console} {r : Recorder} (h : c.display = .recorder r) :
    c.countFrame.display =
      .recorder (if c.cyclesPerFrame ≤ c.sinceFrame + 1 then r.render c.machine.screen else r) := by
  unfold countFrame
  split
  · simp only [render, h, Display.render]
  · exact h

theorem countFrame_sinceFrame (c : Console) :
    c.countFrame.sinceFrame =
      if c.cyclesPerFrame ≤ c.sinceFrame + 1 then 0 else c.sinceFrame + 1 := by
  unfold countFrame
  split <;> rfl

/-- A console whose instructions have left these screens and whose recorder was given these
frames. -/
structure OnSchedule (period : Nat) (keep : Option Nat) (cycles : Nat)
    (screens frames : List Screen)
    (c : Console) : Prop where
  period_eq : c.cyclesPerFrame = period
  cycles_eq : c.machine.cycles = cycles + screens.length
  sinceFrame_eq : c.sinceFrame = screens.length % period
  every : EveryNth period frames screens
  shows : ∃ r, c.display = .recorder r ∧ r.Shows keep frames

section OnSchedule

variable {period : Nat} {keep : Option Nat} {cycles : Nat} {shown rendered : List Screen}
  {c d : Console}

theorem OnSchedule.congr (h : OnSchedule period keep cycles shown rendered c)
    (hrates : d.rates = c.rates) (hcycles : d.machine.cycles = c.machine.cycles)
    (hsince : d.sinceFrame = c.sinceFrame)
    (hshows : ∃ r, d.display = .recorder r ∧ r.Shows keep rendered) :
    OnSchedule period keep cycles shown rendered d where
  period_eq := (cyclesPerFrame_of_rates hrates).trans h.period_eq
  cycles_eq := hcycles.trans h.cycles_eq
  sinceFrame_eq := hsince.trans h.sinceFrame_eq
  every := h.every
  shows := hshows

theorem OnSchedule.poll (h : OnSchedule period keep cycles shown rendered c) :
    OnSchedule period keep cycles shown rendered c.poll.2 := by
  obtain ⟨r, hr, hshows⟩ := h.shows
  exact h.congr rfl rfl rfl ⟨_, poll_recorder hr, hshows.poll c.machine.keypad⟩

theorem OnSchedule.idle (h : OnSchedule period keep cycles shown rendered c)
    (ht : c.turn? = none) : OnSchedule period keep cycles shown rendered c.step.2 := by
  obtain ⟨-, quitRequested, hstep⟩ := step_of_no_turn ht
  rw [hstep]
  exact h.poll.congr rfl rfl rfl h.poll.shows

theorem OnSchedule.settle (h : OnSchedule period keep cycles shown rendered c) (turn : Turn) :
    (c.poll.2.settle turn).cyclesPerFrame = period ∧
      (c.poll.2.settle turn).sinceFrame = shown.length % period ∧
      ∃ r, (c.poll.2.settle turn).display = .recorder r ∧ r.Shows keep rendered := by
  refine ⟨?_, ?_, ?_⟩
  · exact (cyclesPerFrame_of_rates (settle_rates c.poll.2 turn)).trans h.period_eq
  · exact (settle_sinceFrame c.poll.2 turn).trans h.sinceFrame_eq
  · rw [settle_display]
    exact h.poll.shows

theorem OnSchedule.turn (hp : 0 < period) (h : OnSchedule period keep cycles shown rendered c)
    {turn : Turn} (ht : c.turn? = some turn) :
    OnSchedule period keep cycles (shown ++ c.screen?.toList) (rendered ++ c.frame?.toList)
      c.step.2 := by
  obtain ⟨hm, hstep⟩ := step_of_turn? ht
  obtain ⟨hperiod, hsince, r, hdisplay, hshows⟩ := h.settle turn
  have hs : c.screen? = some turn.settled.screen := screen?_of_turn? ht
  have hkept : c.step.2.cyclesPerFrame = period :=
    (cyclesPerFrame_of_rates (step_rates c)).trans h.period_eq
  have hcycles :
      c.step.2.machine.cycles = cycles + (shown ++ [turn.settled.screen]).length := by
    rw [hstep, countFrame_machine, settle_machine, Machine.step_cycles hm, h.poll.cycles_eq,
      List.length_append, List.length_singleton, Nat.add_assoc]
  rw [frame?, hs, h.period_eq, h.sinceFrame_eq, Option.toList_some]
  by_cases hdue : period ≤ shown.length % period + 1
  · rw [if_pos hdue, Option.toList_some]
    refine ⟨hkept, hcycles, ?_, h.every.due hp hdue _, r.render turn.settled.screen, ?_,
      hshows.render _⟩
    · rw [hstep, countFrame_sinceFrame, hperiod, hsince, if_pos hdue, List.length_append,
        List.length_singleton, (succ_div_mod_of_due hp hdue).2.1]
    · rw [hstep, countFrame_recorder hdisplay, hperiod, hsince, if_pos hdue, settle_machine]
  · rw [if_neg hdue, Option.toList_none, List.append_nil]
    refine ⟨hkept, hcycles, ?_, h.every.early hp hdue _, r, ?_, hshows⟩
    · rw [hstep, countFrame_sinceFrame, hperiod, hsince, if_neg hdue, List.length_append,
        List.length_singleton, (succ_div_mod_of_not_due hp hdue).2]
    · rw [hstep, countFrame_recorder hdisplay, hperiod, hsince, if_neg hdue]

theorem kept_onSchedule (hp : 0 < period) :
    Kept fun seen => OnSchedule period keep cycles (screens seen) (frames seen) where
  step seen c h := by
    rw [screens_concat, frames_concat]
    cases ht : c.turn? with
    | some turn => exact h.turn hp ht
    | none =>
        have hs : c.screen? = none := screen?_of_no_turn ht
        rw [frame?, hs, ite_self, Option.toList_none, List.append_nil, List.append_nil]
        exact h.idle ht
  sleep seen c h := h.congr rfl rfl rfl h.shows
  silence seen c h := h.congr rfl rfl rfl h.shows
  inject seen c key pressed h := by
    obtain ⟨r, hr, hshows⟩ := h.shows
    have hi : (c.inject key pressed).2 =
        { c with display := .recorder (r.inject key pressed) } := by
      simp only [inject, hr]
    rw [hi]
    exact h.congr rfl rfl rfl ⟨_, rfl, hshows.keep_eq, hshows.frames_eq, hshows.snapshots_eq⟩

end OnSchedule

theorem create_cases {machine : Machine} {display : Display} {beeper : Beeper} {host : Host}
    {rate frameRate : Int} {c : Console}
    (h : create machine display beeper host rate frameRate = .ok c) :
    c.cyclesPerFrame = (max 1 (rate / frameRate)).toNat ∧ 1 ≤ c.cyclesPerFrame ∧
      c.machine = machine ∧ c.display = display ∧ c.host = host ∧ c.sinceFrame = 0 := by
  unfold create at h
  split at h
  · cases h
  · next hrates =>
      cases h
      refine ⟨?_, Nat.le_max_left _ _, rfl, rfl, rfl, rfl⟩
      have hr : (rate.toNat : Int) = rate := Int.toNat_of_nonneg (by omega)
      have hf : (frameRate.toNat : Int) = frameRate := Int.toNat_of_nonneg (by omega)
      have hdiv : rate / frameRate = (rate.toNat / frameRate.toNat : Nat) := by
        rw [Int.natCast_ediv, hr, hf]
      change max 1 (rate.toNat / frameRate.toNat) = _
      rw [hdiv]
      omega

theorem onSchedule_create {machine : Machine} {beeper : Beeper} {host : Host}
    {rate frameRate : Int} {keep : Option Int} {pollsLeft : Option Nat} {r : Recorder} {c : Console}
    (hr : Recorder.create keep pollsLeft = .ok r)
    (hc : create machine (.recorder r) beeper host rate frameRate = .ok c) :
    OnSchedule c.cyclesPerFrame (keep.map Int.toNat) machine.cycles [] [] c := by
  obtain ⟨-, -, hmachine, hdisplay, -, hsince⟩ := create_cases hc
  subst hmachine
  cases Recorder.eq_empty_of_create hr
  refine ⟨rfl, rfl, ?_, ⟨?_, nofun⟩, _, hdisplay, Recorder.shows_empty _ _⟩
  · rw [hsince]
    exact (Nat.zero_mod _).symm
  · exact (Nat.zero_div _).symm

theorem frames_follow_schedule {machine : Machine} {beeper : Beeper} {host : Host}
    {rate frameRate : Int} {keep : Option Int} {pollsLeft : Option Nat} {r : Recorder}
    {c d : Console} (hr : Recorder.create keep pollsLeft = .ok r)
    (hc : create machine (.recorder r) beeper host rate frameRate = .ok c) {deeds : List Deed}
    (hd : c.actAll deeds = some d) :
    let schedule (seen : List Console) (e : Console) : Prop :=
      OnSchedule (max 1 (rate / frameRate)).toNat (keep.map Int.toNat) machine.cycles
        (screens seen) (frames seen) e
    schedule (c.stepsOf deeds) d ∧
      (∀ realtime n,
        schedule (c.stepsOf deeds ++ d.entered realtime n) (loop realtime d 0 n).2.2) ∧
      (d.step.1 ≠ .ok () ∨ d.poll.1 = .ok false → schedule (c.stepsOf deeds) d.step.2) := by
  intro schedule
  obtain ⟨hperiod, hpos, -⟩ := create_cases hc
  have hfresh : schedule [] c := by
    have hnew := onSchedule_create hr hc
    rwa [hperiod] at hnew
  rw [hperiod] at hpos
  have hkept : Kept schedule := kept_onSchedule hpos
  have hnow : schedule (c.stepsOf deeds) d := hkept.actAll hfresh hd
  refine ⟨hnow, ?_, ?_⟩
  · intro realtime n
    exact hkept.loop hnow realtime n
  · intro hidle
    exact hnow.idle ((turn?_eq_none_iff d).mpr hidle)

/-- Draws a digit and takes it away again, two instructions to a frame. -/
def blinking : Console where
  machine := ((Machine.fresh 14 Source.silent).load (.bytes [0xD0, 0x05, 0x12, 0x00])).machine
  display := .recorder (Recorder.empty (some 2) none)
  beeper := .silent false
  host := Host.idle
  rate := 100
  cyclesPerFrame := 2
  sinceFrame := 0
  quitRequested := false
  sleeps := 0

/-- Eleven instructions, and two steps between them that fail for a key that is not there. -/
def stuttering : List Deed :=
  [.use .step, .inject 16 true, .use .step, .use (.run (some 7) false 0), .inject (-1) false,
    .use (.run (some 5) false 0), .use (.run (some 3) true 0)]

theorem frames_follow_schedule_of_blinking :
    ∃ d r, blinking.actAll stuttering = some d ∧ d.display = .recorder r ∧
      d.machine.cycles = 11 ∧ d.sinceFrame = 11 % 2 ∧ r.frames = 11 / 2 ∧
      r.snapshots = (frames (blinking.stepsOf stuttering)).drop (11 / 2 - 2) := by
  have hsome : (blinking.actAll stuttering).isSome := by decide +kernel
  obtain ⟨d, hd⟩ := Option.isSome_iff_exists.mp hsome
  have hr : Recorder.create (some 2) none = .ok (Recorder.empty (some 2) none) := rfl
  have hc : create blinking.machine (.recorder (Recorder.empty (some 2) none)) (.silent false)
      Host.idle 100 40 = .ok blinking := rfl
  have hlength : (screens (blinking.stepsOf stuttering)).length = 11 := by decide +kernel
  obtain ⟨⟨-, hcycles, hsince, hevery, r, hdisplay, -, hcount, hkept⟩, -, -⟩ :=
    frames_follow_schedule hr hc hd
  have hframes := hevery.length_eq
  have hperiod : (max 1 ((100 : Int) / 40)).toNat = 2 := by decide
  rw [hlength, hperiod] at hframes hsince
  rw [hlength] at hcycles
  generalize frames (blinking.stepsOf stuttering) = rendered at hframes hcount hkept ⊢
  refine ⟨d, r, hd, hdisplay, hcycles, hsince, hcount.trans hframes, ?_⟩
  rw [hkept, ← hframes]
  rfl

end Console

end ChipEight
