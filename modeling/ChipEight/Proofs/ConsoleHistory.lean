import ChipEight.Proofs.BeeperHistory
import ChipEight.Proofs.RunSplitting

/-!
What happens to a console that is stepped, run and given key events. `Console.turn?` is the
instruction that a step completes and `Console.frame?` the frame that it renders. The consoles on
which a step was made are the history of a list of deeds (`Console.stepsOf`), and what a step makes
of its history holds at the end of every list of deeds and in the middle of every run
(`Console.Kept`).
-/

namespace ChipEight

theorem filterMap_concat {α β : Type} (f : α → Option β) (l : List α) (a : α) :
    (l ++ [a]).filterMap f = l.filterMap f ++ (f a).toList := by
  rw [List.filterMap_append, List.filterMap_cons]
  cases f a <;> rfl

namespace Console

/-- The turn of the instruction that a step completes, if it completes one. -/
def turn? (c : Console) : Option Turn :=
  match c.poll with
  | (.ok true, polled) => polled.machine.step.toOption
  | _ => none

/-- The machine's screen right after a step, if the step completes an instruction. -/
def screen? (c : Console) : Option Screen := c.turn?.map fun _ => c.step.2.machine.screen

/-- The frame that a step renders, if it completes an instruction and a frame is due. -/
def frame? (c : Console) : Option Screen :=
  if c.cyclesPerFrame ≤ c.sinceFrame + 1 then c.screen? else none

theorem step_of_turn? {c : Console} {turn : Turn} (h : c.turn? = some turn) :
    c.poll.2.machine.step = .ok turn ∧ c.step = (.ok (), (c.poll.2.settle turn).countFrame) := by
  unfold turn? at h
  split at h
  · next polled hp =>
      cases hm : polled.machine.step with
      | error fault =>
          rw [hm] at h
          cases h
      | ok t =>
          rw [hm] at h
          cases h
          have hpolled : c.poll.2 = polled := by rw [hp]
          rw [hpolled]
          exact ⟨hm, by simp only [step, hp, execute, hm]⟩
  · cases h

theorem step_of_no_turn {c : Console} (h : c.turn? = none) :
    (c.step.1 ≠ .ok () ∨ c.poll.1 = .ok false) ∧
      ∃ quitRequested, c.step.2 = { c.poll.2 with quitRequested } := by
  unfold turn? at h
  unfold step
  split
  · next polled hp => exact ⟨.inl (by simp), polled.quitRequested, by rw [hp]⟩
  · next polled hp => exact ⟨.inr (by rw [hp]), true, by rw [hp]⟩
  · next polled hp =>
      rw [hp] at h
      cases hm : polled.machine.step with
      | error fault =>
          simp only [execute, hm]
          exact ⟨.inl (by simp), polled.quitRequested, by rw [hp]⟩
      | ok t =>
          simp only [hm] at h
          cases h

theorem turn?_eq_none_iff (c : Console) :
    c.turn? = none ↔ c.step.1 ≠ .ok () ∨ c.poll.1 = .ok false := by
  constructor
  · exact fun h => (step_of_no_turn h).1
  · intro h
    cases ht : c.turn? with
    | none => rfl
    | some turn =>
        have hok : c.step.1 = .ok () := by rw [(step_of_turn? ht).2]
        have hpoll : c.poll.1 = .ok true := by
          unfold turn? at ht
          split at ht
          · next hp => rw [hp]
          · cases ht
        rcases h with h | h
        · exact absurd hok h
        · rw [hpoll] at h
          cases h

theorem screen?_of_turn? {c : Console} {turn : Turn} (h : c.turn? = some turn) :
    c.screen? = some turn.settled.screen := by
  rw [screen?, h, Option.map_some, (step_of_turn? h).2, countFrame_machine, settle_machine]

theorem screen?_of_no_turn {c : Console} (h : c.turn? = none) : c.screen? = none := by
  rw [screen?, h, Option.map_none]

theorem settle_display (c : Console) (turn : Turn) : (c.settle turn).display = c.display := by
  unfold settle
  split <;> rfl

theorem settle_sinceFrame (c : Console) (turn : Turn) :
    (c.settle turn).sinceFrame = c.sinceFrame := by
  unfold settle
  split <;> rfl

/-- The consoles on which the rounds of a run begin. -/
def entered (c : Console) (realtime : Bool) (n : Nat) : List Console :=
  (List.range n).filterMap fun k =>
    match loop realtime c 0 k with
    | (.limit, _, d) => some d
    | _ => none

/-- A use of a console, or a key event for its next poll. -/
inductive Deed where
  | use (u : Use)
  | inject (key : Int) (pressed : Bool)

def act (c : Console) : Deed → Option Console
  | .use u => c.use u
  | .inject key pressed => some (c.inject key pressed).2

/-- The consoles on which a deed makes a step. -/
def stepped (c : Console) : Deed → List Console
  | .use .step => [c]
  | .use (.run limit realtime patience) =>
      match Period.rate? c.rate with
      | none => []
      | some _ => c.entered realtime (rounds limit patience)
  | .inject _ _ => []

def actAll (c : Console) : List Deed → Option Console
  | [] => some c
  | d :: ds => (c.act d).bind fun e => e.actAll ds

def stepsOf (c : Console) : List Deed → List Console
  | [] => []
  | d :: ds => c.stepped d ++ (c.act d).elim [] fun e => e.stepsOf ds

/-- A relation between the consoles stepped so far and the console as it is, which every deed
keeps. -/
structure Kept (P : List Console → Console → Prop) : Prop where
  step : ∀ seen c, P seen c → P (seen ++ [c]) c.step.2
  sleep : ∀ seen c, P seen c → P seen c.sleep
  silence : ∀ seen c, P seen c → P seen c.silence
  inject : ∀ seen c key pressed, P seen c → P seen (c.inject key pressed).2

section Kept

variable {P : List Console → Console → Prop} {seen : List Console} {c : Console}

theorem loop_one (realtime : Bool) (c : Console) (executed : Nat) :
    (loop realtime c executed 1).2.2 = c.step.2 ∨
      (loop realtime c executed 1).2.2 = c.step.2.sleep := by
  rw [loop]
  obtain ⟨r, d⟩ := c.step
  cases r with
  | error fault => exact .inl rfl
  | ok u =>
      dsimp only
      split
      · exact .inl rfl
      · cases realtime with
        | false => exact .inl rfl
        | true => exact .inr rfl

theorem Kept.loop (hP : Kept P) (h : P seen c) (realtime : Bool) (n : Nat) :
    P (seen ++ c.entered realtime n) (loop realtime c 0 n).2.2 := by
  induction n with
  | zero =>
      rw [entered, List.range_zero, List.filterMap_nil, List.append_nil]
      exact h
  | succ n ih =>
      rw [entered, List.range_succ, filterMap_concat, ← List.append_assoc, loop_add]
      change P (seen ++ c.entered realtime n ++ _) _
      -- One more round begins on the console that the first `n` leave, if they end at their limit.
      generalize Console.loop realtime c 0 n = ended at ih
      obtain ⟨e, k, d⟩ := ended
      cases e with
      | limit =>
          have hd := hP.step _ d ih
          rcases loop_one realtime d k with ho | ho
          · rw [proceed, ho]
            exact hd
          · rw [proceed, ho]
            exact hP.sleep _ _ hd
      | quit => exact (List.append_nil _).symm ▸ ih
      | fault f => exact (List.append_nil _).symm ▸ ih

theorem Kept.act (hP : Kept P) (h : P seen c) {deed : Deed} {d : Console}
    (hd : c.act deed = some d) : P (seen ++ c.stepped deed) d := by
  cases deed with
  | inject key pressed =>
      cases hd
      rw [stepped, List.append_nil]
      exact hP.inject seen c key pressed h
  | use u =>
      cases u with
      | step =>
          cases hd
          exact hP.step seen c h
      | run limit realtime patience =>
          obtain ⟨ended, he, rfl⟩ := Option.map_eq_some_iff.mp hd
          cases hr : Period.rate? c.rate with
          | none =>
              rw [run_of_no_rate hr] at he
              cases he
              simpa only [stepped, hr, List.append_nil] using h
          | some rate =>
              rw [run_console hr he]
              simpa only [stepped, hr] using
                hP.silence _ _ (hP.loop h realtime (rounds limit patience))

theorem Kept.actAll (hP : Kept P) (h : P seen c) {deeds : List Deed} {d : Console}
    (hd : c.actAll deeds = some d) : P (seen ++ c.stepsOf deeds) d := by
  induction deeds generalizing seen c with
  | nil =>
      cases hd
      rw [stepsOf, List.append_nil]
      exact h
  | cons deed deeds ih =>
      obtain ⟨e, he, hd⟩ := Option.bind_eq_some_iff.mp hd
      rw [stepsOf, he, ← List.append_assoc]
      exact ih (hP.act h he) hd

end Kept

end Console

end ChipEight
