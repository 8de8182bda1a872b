import ChipEight.Proofs.KeyReleases

/-!
When keys go down and up. Three words look at the keypad. While the steps of a run find none of
them (`Session.SparesKeypad`), a step does not see the keypad and leaves it as it is, so key events
may come at any point between the steps.
-/

namespace ChipEight

/-- Whether a word is `Ex9E`, `ExA1` or `Fx0A`. -/
def Word.asksKeypad (w : Word) : Bool :=
  w.family = 0xE ∧ (w.byte = 0x9E ∨ w.byte = 0xA1) ∨ w.family = 0xF ∧ w.byte = 0x0A

def Instruction.asksKeypad : Instruction → Bool
  | .skipIfDown _ | .skipIfUp _ | .awaitRelease _ => true
  | _ => false

theorem Instruction.asksKeypad_of_word {w : Word} {i : Instruction} (h : ofWord? w = some i) :
    i.asksKeypad = w.asksKeypad := by
  have hw := written_of_ofWord? h
  cases i <;> simp_all [Written, Word.asksKeypad, asksKeypad]

/-- The keypad after a key event; an event of no key changes nothing. -/
def Keypad.press (k : Keypad) (event : Int × Bool) : Keypad :=
  match keyOfInt? event.1 with
  | some key => k.set key event.2
  | none => k

namespace Machine

def withKeypad (m : Machine) (keypad : Keypad) : Machine := { m with keypad }

theorem execute_withKeypad (m : Machine) {i : Instruction} (hi : i.asksKeypad = false)
    (k : Keypad) : (m.withKeypad k).execute i = (m.execute i).withKeypad k := by
  cases i with
  | arithmetic op x y => cases op <;> rfl
  | skipIfDown x => cases hi
  | skipIfUp x => cases hi
  | awaitRelease x => cases hi
  | _ => rfl

theorem untimed_withKeypad (k : Keypad) : Untimed (withKeypad · k) :=
  ⟨fun _ => rfl, fun _ _ => rfl⟩

end Machine

namespace Command

def isStep : Command → Bool
  | .step => true
  | _ => false

def isKey : Command → Bool
  | .key _ _ => true
  | _ => false

end Command

/-- The commands are the key events in their order, with `n` steps anywhere between them. -/
inductive Interleaved : List (Int × Bool) → Nat → List Command → Prop
  | nil : Interleaved [] 0 []
  | key {keys n cs} (event : Int × Bool) :
      Interleaved keys n cs → Interleaved (event :: keys) n (.key event.1 event.2 :: cs)
  | step {keys n cs} : Interleaved keys n cs → Interleaved keys (n + 1) (.step :: cs)

namespace Session

def withKeypad (s : Session) (k : Keypad) : Session := { s with machine := s.machine.withKeypad k }

theorem settle_withKeypad (s : Session) (t : Turn) (k : Keypad) :
    (s.withKeypad k).settle (t.map (·.withKeypad k)) =
      ((s.settle t).1, (s.settle t).2.withKeypad k) :=
  settle_map (·.withKeypad k) s t

theorem step_withKeypad {s : Session} (h : s.machine.fetch.asksKeypad = false) (k : Keypad) :
    (s.withKeypad k).perform .step =
      ((s.perform .step).1, (s.perform .step).2.withKeypad k) := by
  have hf : (s.withKeypad k).machine.fetch = s.machine.fetch := rfl
  cases hi : Instruction.ofWord? s.machine.fetch with
  | none =>
      have hk := hi
      rw [← hf] at hk
      rw [perform, perform, step_refused hi, step_refused hk]
      rfl
  | some i =>
      have hk := hi
      rw [← hf] at hk
      have hasks : i.asksKeypad = false := (Instruction.asksKeypad_of_word hi).trans h
      have hm : (s.withKeypad k).machine.execute i = (s.machine.execute i).withKeypad k :=
        Machine.execute_withKeypad s.machine hasks k
      rw [perform, perform, step_executed hi, step_executed hk, hm,
        (Machine.untimed_withKeypad k).count, settle_withKeypad]

/-- What a key event is answered with. -/
def keyAnswer (event : Int × Bool) : Except Fault (Option Nat) :=
  match keyOfInt? event.1 with
  | some _ => .ok none
  | none => .error (.keyOutOfRange event.1)

theorem key_withKeypad (s : Session) (k : Keypad) (event : Int × Bool) :
    (s.withKeypad k).perform (.key event.1 event.2) =
      (keyAnswer event, s.withKeypad (k.press event)) := by
  obtain ⟨key, pressed⟩ := event
  cases hk : keyOfInt? key with
  | none => simp only [perform, Machine.setKey_of_no_key _ hk, keyAnswer, Keypad.press, hk]
  | some n =>
      simp only [perform, Machine.setKey_of_key _ hk, keyAnswer, Keypad.press, hk]
      rfl

/-- No step of a run finds a word that looks at the keypad. -/
def SparesKeypad (s : Session) (cs : List Command) : Prop :=
  ∀ v ∈ s.trace cs, v.2.isStep = true → v.1.machine.fetch.asksKeypad = false

instance (s : Session) (cs : List Command) : Decidable (s.SparesKeypad cs) :=
  inferInstanceAs (Decidable
    (∀ v ∈ s.trace cs, v.2.isStep = true → v.1.machine.fetch.asksKeypad = false))

theorem sparesKeypad_cons (s : Session) (c : Command) (cs : List Command) :
    s.SparesKeypad (c :: cs) ↔
      (c.isStep = true → s.machine.fetch.asksKeypad = false) ∧
        (s.perform c).2.SparesKeypad cs :=
  List.forall_mem_cons

/-- The answers of a run to the commands of one kind, in their order. -/
def answers (s : Session) (kind : Command → Bool) (cs : List Command) :
    List (Except Fault (Option Nat)) :=
  ((s.trace cs).filter fun v => kind v.2).map fun v => (v.1.perform v.2).1

theorem answers_cons (s : Session) (kind : Command → Bool) (c : Command) (cs : List Command) :
    s.answers kind (c :: cs) =
      if kind c then (s.perform c).1 :: (s.perform c).2.answers kind cs
      else (s.perform c).2.answers kind cs := by
  rw [answers, trace, List.filter_cons]
  split <;> rfl

theorem spares_interleaved {keys : List (Int × Bool)} {n : Nat} {cs : List Command}
    (h : Interleaved keys n cs) (s : Session) (k : Keypad) :
    (s.withKeypad k).SparesKeypad cs ↔ s.SparesKeypad (List.replicate n .step) := by
  induction h generalizing s k with
  | nil => simp [SparesKeypad, trace]
  | key event _ ih =>
      rw [sparesKeypad_cons, key_withKeypad, ih]
      exact and_iff_right fun hstep => absurd hstep Bool.false_ne_true
  | step _ ih =>
      rw [List.replicate_succ, sparesKeypad_cons, sparesKeypad_cons]
      have hf : (s.withKeypad k).machine.fetch = s.machine.fetch := rfl
      rw [hf]
      refine and_congr_right ?_
      intro hw
      rw [step_withKeypad (hw rfl), ih]

theorem after_interleaved {keys : List (Int × Bool)} {n : Nat} {cs : List Command}
    (h : Interleaved keys n cs) {s : Session} (hs : s.SparesKeypad (List.replicate n .step))
    (k : Keypad) :
    (s.withKeypad k).after cs =
        (s.after (List.replicate n .step)).withKeypad (keys.foldl Keypad.press k) ∧
      (s.withKeypad k).answers Command.isKey cs = keys.map keyAnswer ∧
      (s.withKeypad k).answers Command.isStep cs =
        s.answers Command.isStep (List.replicate n .step) := by
  -- The session on the right only steps: a key event changes the keypad on the left and nothing on
  -- the right, and a step is the same on both.
  induction h generalizing s k with
  | nil => exact ⟨rfl, rfl, rfl⟩
  | key event _ ih =>
      obtain ⟨hafter, hkeys, hsteps⟩ := ih hs (k.press event)
      rw [after, answers_cons, answers_cons, key_withKeypad]
      exact ⟨hafter, congrArg (keyAnswer event :: ·) hkeys, hsteps⟩
  | step _ ih =>
      rw [List.replicate_succ, sparesKeypad_cons] at hs
      obtain ⟨hafter, hkeys, hsteps⟩ := ih hs.2 k
      rw [List.replicate_succ, after, answers_cons, answers_cons, answers_cons,
        step_withKeypad (hs.1 rfl)]
      exact ⟨hafter, hkeys, congrArg ((s.perform .step).1 :: ·) hsteps⟩

theorem key_timing_unobservable {s : Session} {others : List (Int × Bool)} {n : Nat}
    {known : List Command} (hknown : Interleaved others n known) (hspared : s.SparesKeypad known)
    {keys : List (Int × Bool)} {cs : List Command} (hcs : Interleaved keys n cs) :
    let still := List.replicate n .step
    s.SparesKeypad cs ∧
      s.after cs = (s.after still).withKeypad (keys.foldl Keypad.press s.machine.keypad) ∧
      s.answers Command.isKey cs = keys.map keyAnswer ∧
      s.answers Command.isStep cs = s.answers Command.isStep still ∧
      ∀ ds, Interleaved keys n ds →
        s.after ds = s.after cs ∧
          s.answers Command.isKey ds = s.answers Command.isKey cs ∧
          s.answers Command.isStep ds = s.answers Command.isStep cs := by
  intro still
  have hstill : s.SparesKeypad still := (spares_interleaved hknown s s.machine.keypad).mp hspared
  obtain ⟨hafter, hkeys, hsteps⟩ := after_interleaved hcs hstill s.machine.keypad
  refine ⟨(spares_interleaved hcs s s.machine.keypad).mpr hstill, hafter, hkeys, hsteps, ?_⟩
  intro ds hds
  obtain ⟨dafter, dkeys, dsteps⟩ := after_interleaved hds hstill s.machine.keypad
  exact ⟨dafter.trans hafter.symm, dkeys.trans hkeys.symm, dsteps.trans hsteps.symm⟩

/-- Starts a tone before a listener that fails, and comes to a refused word. -/
def tuned : Session :=
  start ((Machine.fresh 1 Source.silent).load
    (.bytes [0x60, 0x05, 0xF0, 0x18, 0xA2, 0x00, 0xFF, 0xFF])).machine
    (some fun _ => some "sound device lost")

theorem key_timing_unobservable_tuned :
    let early : List Command :=
      [.key 3 true, .key 16 true, .key 3 false, .step, .step, .step, .step]
    let spread : List Command :=
      [.step, .key 3 true, .step, .key 16 true, .step, .step, .key 3 false]
    tuned.after spread = tuned.after early ∧
      (tuned.after spread).machine.keypad.released = some 3 ∧
      tuned.answers Command.isKey spread = [.ok none, .error (.keyOutOfRange 16), .ok none] ∧
      tuned.answers Command.isStep spread =
        [.ok none, .error (.listener "sound device lost"), .ok none,
          .error (.unknownOpcode 0xFFFF 0x206)] ∧
      tuned.answers Command.isStep early = tuned.answers Command.isStep spread := by
  intro early spread
  have hearly : Interleaved [(3, true), (16, true), (3, false)] 4 early :=
    .key (3, true) (.key (16, true) (.key (3, false) (.step (.step (.step (.step .nil))))))
  have hspread : Interleaved [(3, true), (16, true), (3, false)] 4 spread :=
    .step (.key (3, true) (.step (.key (16, true) (.step (.step (.key (3, false) .nil))))))
  have hstill : Interleaved [] 4 [.step, .step, .step, .step] := .step (.step (.step (.step .nil)))
  have hwords : tuned.SparesKeypad [.step, .step, .step, .step] := by
    decide +kernel
  obtain ⟨-, hafter, hkeys, hsteps, hall⟩ := key_timing_unobservable hstill hwords hspread
  obtain ⟨hsame, -, halike⟩ := hall early hearly
  refine ⟨hsame.symm, ?_, hkeys, ?_, halike⟩
  · rw [hafter]
    rfl
  · rw [hsteps]
    decide +kernel

end Session

end ChipEight
