import ChipEight.Proofs.RunLength

/-!
Sound left out of a console. No poll, no instruction and no drawing takes notice of what a
`Muffling` takes away from the beeper and the host, so a console and what is left of it go through
every run alike (`Muffling.bisimulation`).
-/

namespace ChipEight

/-- Whether a call is made for a beeper. -/
def Call.isAudio : Call → Bool
  | .mixerInit _ _ _ => true
  | .makeSound _ => true
  | .play _ => true
  | .stop => true
  | _ => false

namespace Console

/-- Consoles so related cannot be told apart by what their steps answer. -/
structure Bisimulation (R : Console → Console → Prop) : Prop where
  step : ∀ c d, R c d → c.step.1 = d.step.1 ∧ R c.step.2 d.step.2
  sleep : ∀ c d, R c d → R c.sleep d.sleep
  quitRequested_eq : ∀ c d, R c d → c.quitRequested = d.quitRequested

theorem Bisimulation.loop {R : Console → Console → Prop} (hR : Bisimulation R) {c d : Console}
    (h : R c d) (realtime : Bool) (executed n : Nat) :
    (loop realtime c executed n).1 = (loop realtime d executed n).1 ∧
      (loop realtime c executed n).2.1 = (loop realtime d executed n).2.1 ∧
      R (loop realtime c executed n).2.2 (loop realtime d executed n).2.2 := by
  induction n generalizing c d executed with
  | zero => exact ⟨rfl, rfl, h⟩
  | succ n ih =>
      obtain ⟨hresult, hstep⟩ := hR.step c d h
      have hquit := hR.quitRequested_eq _ _ hstep
      rw [Console.loop, Console.loop]
      generalize c.step = stepped, d.step = stepped' at hresult hstep hquit
      obtain ⟨r, c'⟩ := stepped
      obtain ⟨r', d'⟩ := stepped'
      dsimp only at hresult hstep hquit
      subst hresult
      cases r with
      | error fault => exact ⟨rfl, rfl, hstep⟩
      | ok u =>
          dsimp only
          rw [hquit]
          split
          · exact ⟨rfl, rfl, hstep⟩
          · apply ih
            cases realtime with
            | false => exact hstep
            | true => exact hR.sleep c' d' hstep

end Console

/-- What is left of beepers and hosts when something is taken away that only sound depends on. -/
structure Muffling where
  beeper : Beeper → Beeper
  host : Host → Host
  beeper_beeper : ∀ b, beeper (beeper b) = beeper b
  host_host : ∀ h, host (host h) = host h
  ring : ∀ b on h, beeper (Beeper.ring b on h).1 = beeper b ∧ host (Beeper.ring b on h).2 = host h
  record : ∀ h c, c.isAudio = false → (host h).record c = host (h.record c)
  events : ∀ h, (host h).events = (h.events.1, host h.events.2)

namespace Muffling

variable (M : Muffling)

theorem poll_display (d : Display) (h : Host) (k : Keypad) :
    d.poll (M.host h) k = { d.poll h k with host := M.host (d.poll h k).host } := by
  cases d with
  | recorder r => rfl
  | window w =>
      simp only [Display.poll, Window.poll]
      split
      · rw [M.events]
        cases h.events with
        | mk result k => cases result <;> rfl
      · rfl

theorem render_display (d : Display) (s : Screen) (h : Host) :
    d.render s (M.host h) = ((d.render s h).1, M.host (d.render s h).2) := by
  cases d with
  | recorder r => rfl
  | window w =>
      simp only [Display.render, Window.render]
      split
      · rw [M.record _ _ rfl, M.record _ _ rfl, M.record _ _ rfl, M.record _ _ rfl]
      · rfl

def console (c : Console) : Console := { c with beeper := M.beeper c.beeper, host := M.host c.host }

theorem console_console (c : Console) : M.console (M.console c) = M.console c := by
  simp only [console, M.beeper_beeper, M.host_host]

/-- Consoles of which the same is left differ in their beepers and hosts alone. -/
theorem eq_of_console {c d : Console} (h : M.console c = M.console d) :
    c = { d with beeper := c.beeper, host := c.host } :=
  calc
    c = { M.console c with beeper := c.beeper, host := c.host } := rfl
    _ = { M.console d with beeper := c.beeper, host := c.host } := by rw [h]
    _ = { d with beeper := c.beeper, host := c.host } := rfl

theorem ring_console (c : Console) (on : Bool) : M.console (c.ring on) = M.console c := by
  obtain ⟨hb, hh⟩ := M.ring c.beeper on c.host
  simp only [Console.ring, console, hb, hh]

theorem silence_console (c : Console) : M.console c.silence = M.console c := M.ring_console c false

theorem settle_console (c : Console) (turn : Turn) :
    M.console (c.settle turn) = { M.console c with machine := turn.settled } := by
  unfold Console.settle
  split
  · rfl
  · exact M.ring_console _ _

theorem poll_console (c : Console) : (M.console c).poll = (c.poll.1, M.console c.poll.2) := by
  simp only [Console.poll, console, poll_display]

theorem render_console (c : Console) : (M.console c).render = M.console c.render := by
  simp only [Console.render, console, render_display]

theorem countFrame_console (c : Console) :
    (M.console c).countFrame = M.console c.countFrame := by
  have hperiod : (M.console c).cyclesPerFrame = c.cyclesPerFrame := rfl
  have hsince : (M.console c).sinceFrame = c.sinceFrame := rfl
  unfold Console.countFrame
  rw [hperiod, hsince]
  split
  · exact M.render_console { c with sinceFrame := 0 }
  · rfl

theorem step_console (c : Console) :
    (M.console c).step.1 = c.step.1 ∧ M.console (M.console c).step.2 = M.console c.step.2 := by
  unfold Console.step
  rw [poll_console]
  obtain ⟨result, polled⟩ := c.poll
  cases result with
  | error fault => exact ⟨rfl, M.console_console polled⟩
  | ok stays =>
      cases stays with
      | false => exact ⟨rfl, M.console_console { polled with quitRequested := true }⟩
      | true =>
          have hm : (M.console polled).machine = polled.machine := rfl
          simp only [Console.execute, hm]
          cases polled.machine.step with
          | error fault => exact ⟨rfl, M.console_console polled⟩
          | ok turn =>
              refine ⟨rfl, ?_⟩
              simp only [← countFrame_console, settle_console, console_console]

theorem bisimulation : Console.Bisimulation fun c d => M.console c = M.console d where
  step c d h := by
    obtain ⟨hc, hc'⟩ := M.step_console c
    obtain ⟨hd, hd'⟩ := M.step_console d
    rw [h] at hc hc'
    exact ⟨hc.symm.trans hd, hc'.symm.trans hd'⟩
  sleep c d h := congrArg Console.sleep h
  quitRequested_eq c d h := by rw [M.eq_of_console h]

theorem conclude {x y : Console.Ending × Nat × Console} (he : x.1 = y.1) (hn : x.2.1 = y.2.1)
    (h : M.console x.2.2 = M.console y.2.2) :
    (Console.conclude x).1 = (Console.conclude y).1 ∧
      M.console (Console.conclude x).2 = M.console (Console.conclude y).2 := by
  obtain ⟨e, n, c⟩ := x
  obtain ⟨f, m, d⟩ := y
  dsimp only at he hn h
  subst he hn
  have hs : M.console c.silence = M.console d.silence := by
    rw [silence_console, silence_console, h]
  cases e with
  | limit => exact ⟨rfl, hs⟩
  | quit => exact ⟨rfl, hs⟩
  | fault f => exact ⟨rfl, hs⟩

theorem run {c d : Console} (h : M.console c = M.console d) (limit : Option Int) (realtime : Bool)
    (patience : Nat) :
    Option.Rel (fun x y => x.1 = y.1 ∧ M.console x.2 = M.console y.2)
      (c.run limit realtime patience) (d.run limit realtime patience) := by
  have hrate : c.rate = d.rate := by rw [M.eq_of_console h]
  unfold Console.run
  rw [hrate]
  cases Period.rate? d.rate with
  | none => exact .some ⟨rfl, h⟩
  | some rate =>
      cases limit with
      | some n =>
          obtain ⟨he, hn, hc⟩ := M.bisimulation.loop h realtime 0 n.toNat
          exact .some (M.conclude he hn hc)
      | none =>
          obtain ⟨he, hn, hc⟩ := M.bisimulation.loop h realtime 0 patience
          generalize Console.loop realtime c 0 patience = x at he hn hc
          generalize Console.loop realtime d 0 patience = y at he hn hc
          have hended := M.conclude he hn hc
          obtain ⟨e, n, c'⟩ := x
          obtain ⟨f, m, d'⟩ := y
          dsimp only at he
          subst he
          cases e with
          | limit => exact .none
          | quit => exact .some hended
          | fault f => exact .some hended

theorem stop_display (d : Display) (h : Host) :
    d.stop (M.host h) = ((d.stop h).1, M.host (d.stop h).2) := by
  cases d with
  | recorder r => rfl
  | window w =>
      simp only [Display.stop, Window.stop]
      split
      · rw [M.record _ _ rfl]
      · rfl

theorem close_console (c : Console) :
    M.console c.close =
      { M.console c with
        display := (c.display.stop (M.host c.host)).1
        host := (c.display.stop (M.host c.host)).2 } := by
  obtain ⟨hb, hh⟩ := M.ring c.beeper false c.host
  change M.beeper (c.beeper.close c.host).1 = _ at hb
  change M.host (c.beeper.close c.host).2 = _ at hh
  rw [← hh, stop_display]
  simp only [console, Console.close, hb, ← hh]

theorem close {c d : Console} (h : M.console c = M.console d) :
    M.console c.close = M.console d.close := by
  have hdisplay : c.display = d.display := by rw [M.eq_of_console h]
  have hhost : M.host c.host = M.host d.host := congrArg Console.host h
  rw [close_console, close_console, h, hdisplay, hhost]

end Muffling

end ChipEight
