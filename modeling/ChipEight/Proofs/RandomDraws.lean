import ChipEight.Proofs.KeyTiming

/-!
Who takes random bytes. A step that finds `Cxkk` takes one, whatever `kk` is, and nothing else takes
any (`Session.perform_withSource`). So the source stands as far on as such steps were made
(`Session.after_source`), and a run sees no more of it than that many bytes.
-/

namespace ChipEight

namespace Source

/-- A source after some draws. -/
def past : Nat → Source → Source
  | 0, s => s
  | n + 1, s => past n s.next.2

theorem past_add (n m : Nat) (s : Source) : s.past (n + m) = (s.past n).past m := by
  induction n generalizing s with
  | zero => rw [Nat.zero_add, past]
  | succ n ih => rw [Nat.succ_add, past, past, ih]

theorem drop_drawn (n m : Nat) (s : Source) : (drawn m s).drop n = drawn (m - n) (s.past n) := by
  induction n generalizing m s with
  | zero => rfl
  | succ n ih =>
      cases m with
      | zero =>
          rw [Nat.zero_sub]
          rfl
      | succ m => rw [drawn, List.drop_succ_cons, ih, Nat.succ_sub_succ, past]

theorem getElem?_drawn {n m : Nat} (h : n < m) (s : Source) :
    (drawn m s)[n]? = some (s.past n).next.1 := by
  obtain ⟨k, hk⟩ : ∃ k, m - n = k + 1 := ⟨m - n - 1, by omega⟩
  have hdrop : (drawn m s)[n]? = ((drawn m s).drop n)[0]? := by
    rw [List.getElem?_drop, Nat.add_zero]
  rw [hdrop, drop_drawn, hk]
  rfl

theorem drawn_past {n m : Nat} {a b : Source} (h : drawn m a = drawn m b) :
    drawn (m - n) (a.past n) = drawn (m - n) (b.past n) := by
  rw [← drop_drawn, ← drop_drawn, h]

theorem next_of_drawn {m : Nat} {a b : Source} (h : drawn m a = drawn m b) (hm : 1 ≤ m) :
    a.next.1 = b.next.1 := by
  have hfirst := congrArg (fun bytes => bytes[0]?) h
  rw [getElem?_drawn hm, getElem?_drawn hm] at hfirst
  exact Option.some.inj hfirst

end Source

def Instruction.takesByte : Instruction → Bool
  | .random _ _ => true
  | _ => false

theorem Instruction.takesByte_of_word {w : Word} {i : Instruction} (h : ofWord? w = some i) :
    i.takesByte = (w.family == 0xC) := by
  have hw := written_of_ofWord? h
  cases i <;> simp_all [Written, takesByte]

theorem Instruction.executed_of_random {w : Word} (h : w.family = 0xC) :
    ofWord? w = some (.random w.x w.byte) :=
  (ofWord?_eq_some_iff w (.random w.x w.byte)).mpr ⟨h, rfl, rfl⟩

namespace Machine

def withSource (m : Machine) (source : Source) : Machine := { m with source }

theorem untimed_withSource (a : Source) : Untimed (withSource · a) :=
  ⟨fun _ => rfl, fun _ _ => rfl⟩

theorem execute_withSource (m : Machine) {i : Instruction} {a b : Source}
    (h : i.takesByte = true → a.next.1 = b.next.1) :
    (m.withSource a).execute i =
      ((m.withSource b).execute i).withSource (a.past i.takesByte.toNat) := by
  cases i with
  | random x k =>
      simp only [execute, random, withSource, h rfl]
      rfl
  | arithmetic op x y => cases op <;> rfl
  | awaitRelease x =>
      simp only [execute, awaitRelease, withSource]
      cases m.keypad.released <;> rfl
  | _ => rfl

end Machine

namespace Session

def withSource (s : Session) (a : Source) : Session := { s with machine := s.machine.withSource a }

theorem settle_withSource (s : Session) (t : Turn) (a b c : Source) :
    (s.withSource a).settle (t.map (·.withSource c)) =
      (((s.withSource b).settle t).1, ((s.withSource b).settle t).2.withSource c) :=
  settle_map (·.withSource c) (s.withSource b) t

/-- Whether a command is a step that finds `Cxkk`. -/
def takesByte (s : Session) : Command → Bool
  | .step => s.machine.fetch.family == 0xC
  | _ => false

theorem step_withSource (s : Session) {a b : Source}
    (h : s.takesByte .step = true → a.next.1 = b.next.1) :
    (s.withSource a).perform .step =
      (((s.withSource b).perform .step).1,
        ((s.withSource b).perform .step).2.withSource (a.past (s.takesByte .step).toNat)) := by
  cases hi : Instruction.ofWord? s.machine.fetch with
  | none =>
      have hnone : s.takesByte .step = false := by
        refine Bool.eq_false_iff.mpr fun ht => ?_
        rw [Instruction.executed_of_random (eq_of_beq ht)] at hi
        cases hi
      have hrefused (c : Source) : Instruction.ofWord? (s.withSource c).machine.fetch = none := hi
      rw [perform, perform, step_refused (hrefused a), step_refused (hrefused b), hnone]
      rfl
  | some i =>
      have htakes : i.takesByte = s.takesByte .step := Instruction.takesByte_of_word hi
      have hexecuted (c : Source) :
          Instruction.ofWord? (s.withSource c).machine.fetch = some i := hi
      rw [← htakes] at h ⊢
      have hm : (s.withSource a).machine.execute i =
          ((s.withSource b).machine.execute i).withSource (a.past i.takesByte.toNat) :=
        Machine.execute_withSource s.machine h
      rw [perform, perform, step_executed (hexecuted a), step_executed (hexecuted b), hm,
        (Machine.untimed_withSource _).count, settle_withSource s _ a b]

theorem perform_withSource (s : Session) {c : Command} {a b : Source}
    (h : s.takesByte c = true → a.next.1 = b.next.1) :
    (s.withSource a).perform c =
      (((s.withSource b).perform c).1,
        ((s.withSource b).perform c).2.withSource (a.past (s.takesByte c).toNat)) := by
  cases c with
  | step => exact s.step_withSource h
  | tick =>
      have htick : (s.withSource a).machine.tick =
          (s.withSource b).machine.tick.map (·.withSource a) :=
        (Machine.untimed_withSource a).tick (s.withSource b).machine
      rw [perform, perform, tick, tick, htick, settle_withSource s _ a b]
      rfl
  | key key pressed =>
      simp only [perform, Machine.setKey, withSource, Machine.withSource]
      cases s.machine.keypad.setKey key pressed <;> rfl
  | load image =>
      simp only [perform, Machine.load, withSource, Machine.withSource]
      cases image.read Machine.programMax <;> rfl
  | write address value => rfl
  | push value => rfl
  | pop => rfl

theorem perform_source (s : Session) (c : Command) :
    (s.perform c).2.machine.source = s.machine.source.past (s.takesByte c).toNat :=
  congrArg (·.2.machine.source)
    (s.perform_withSource (a := s.machine.source) (b := s.machine.source) fun _ => rfl)

/-- The sessions whose steps take a byte in a run. -/
def randomSteps (s : Session) (cs : List Command) : List Session :=
  ((s.trace cs).filter fun v => v.1.takesByte v.2).map (·.1)

theorem randomSteps_cons (s : Session) (c : Command) (cs : List Command) :
    s.randomSteps (c :: cs) =
      if s.takesByte c then s :: (s.perform c).2.randomSteps cs
      else (s.perform c).2.randomSteps cs := by
  rw [randomSteps, trace, List.filter_cons]
  split <;> rfl

theorem length_randomSteps_cons (s : Session) (c : Command) (cs : List Command) :
    (s.randomSteps (c :: cs)).length =
      (s.takesByte c).toNat + ((s.perform c).2.randomSteps cs).length := by
  rw [randomSteps_cons, Nat.add_comm]
  cases s.takesByte c <;> rfl

theorem after_source (s : Session) (cs : List Command) :
    (s.after cs).machine.source = s.machine.source.past (s.randomSteps cs).length := by
  induction cs generalizing s with
  | nil => rfl
  | cons c cs ih =>
      rw [after, ih, perform_source, length_randomSteps_cons, Source.past_add]

theorem source_of_randomStep {s t : Session} {cs : List Command} {k : Nat}
    (h : (s.randomSteps cs)[k]? = some t) :
    t.machine.fetch.family = 0xC ∧ t.machine.source = s.machine.source.past k := by
  induction cs generalizing s k with
  | nil => cases h
  | cons c cs ih =>
      have hsource := s.perform_source c
      cases htaken : s.takesByte c with
      | true =>
          rw [randomSteps_cons, if_pos htaken] at h
          rw [htaken] at hsource
          cases k with
          | zero =>
              cases h
              cases c with
              | step => exact ⟨eq_of_beq htaken, rfl⟩
              | _ => cases htaken
          | succ k =>
              obtain ⟨hword, hrest⟩ := ih h
              rw [hsource] at hrest
              exact ⟨hword, hrest⟩
      | false =>
          rw [randomSteps_cons, if_neg (Bool.eq_false_iff.mp htaken)] at h
          rw [htaken] at hsource
          obtain ⟨hword, hrest⟩ := ih h
          rw [hsource] at hrest
          exact ⟨hword, hrest⟩

theorem perform_random {s : Session} (h : s.machine.fetch.family = 0xC) :
    let w := s.machine.fetch
    let next := (s.perform .step).2.machine
    next =
      { s.machine with
        v := s.machine.v.set w.x (s.machine.source.next.1 &&& w.byte)
        pc := s.machine.pc + 2
        source := s.machine.source.past 1 }.retime next.timing :=
  perform_retime (Instruction.executed_of_random h)

theorem after_withSource {s : Session} {cs : List Command} {a b : Source} {m : Nat}
    (h : Source.drawn m a = Source.drawn m b) (hm : ((s.withSource a).randomSteps cs).length ≤ m) :
    ((s.withSource b).randomSteps cs).length = ((s.withSource a).randomSteps cs).length ∧
      (∀ kind, (s.withSource a).answers kind cs = (s.withSource b).answers kind cs) ∧
      (s.withSource a).after cs =
        ((s.withSource b).after cs).withSource
          (a.past ((s.withSource a).randomSteps cs).length) := by
  -- The two runs go on from one session `t`, with what is left of either source: a step that takes
  -- a byte takes the same one in both.
  induction cs generalizing s a b m with
  | nil => exact ⟨rfl, fun _ => rfl, rfl⟩
  | cons c cs ih =>
      have htakes (e : Source) : (s.withSource e).takesByte c = s.takesByte c := by
        cases c <;> rfl
      rw [length_randomSteps_cons, htakes] at hm ⊢
      rw [length_randomSteps_cons, htakes]
      let d := (s.takesByte c).toNat
      have hnext : s.takesByte c = true → a.next.1 = b.next.1 := by
        intro ht
        rw [ht] at hm
        exact Source.next_of_drawn h (Nat.le_trans (Nat.le_add_right 1 _) hm)
      obtain ⟨answer, t, hp, hq⟩ :
          ∃ answer, ∃ t : Session, (s.withSource a).perform c = (answer, t.withSource (a.past d)) ∧
            (s.withSource b).perform c = (answer, t.withSource (b.past d)) :=
        ⟨_, _, s.perform_withSource hnext, s.perform_withSource fun _ => rfl⟩
      rw [hp] at hm ⊢
      have hrest : ((t.withSource (a.past d)).randomSteps cs).length ≤ m - d :=
        Nat.le_sub_of_add_le' hm
      obtain ⟨hlength, hanswers, hafter⟩ := ih (Source.drawn_past h) hrest
      refine ⟨?_, ?_, ?_⟩
      · rw [hq, hlength]
      · intro kind
        rw [answers_cons, answers_cons, hp, hq, hanswers]
      · rw [after, after, hp, hq, hafter, Source.past_add]

theorem random_bytes_taken_in_turn (s : Session) (cs : List Command) :
    (∀ (k : Nat) (hk : k < (s.randomSteps cs).length),
      let now := (s.randomSteps cs)[k]
      let w := now.machine.fetch
      let next := (now.perform .step).2.machine
      w.family = 0xC ∧
        ∃ d, (Source.drawn (k + 1) s.machine.source)[k]? = some d ∧
          next =
            { now.machine with
              v := now.machine.v.set w.x (d &&& w.byte)
              pc := now.machine.pc + 2
              source := now.machine.source.past 1 }.retime next.timing) ∧
      (∀ (t : Session) (c : Command), t.takesByte c = false →
        (t.perform c).2.machine.source = t.machine.source) ∧
      (s.after cs).machine.source = s.machine.source.past (s.randomSteps cs).length ∧
      ∀ (a b : Source) (m : Nat), Source.drawn m a = Source.drawn m b →
        ((s.withSource a).randomSteps cs).length ≤ m →
        ((s.withSource b).randomSteps cs).length = ((s.withSource a).randomSteps cs).length ∧
          (∀ kind, (s.withSource a).answers kind cs = (s.withSource b).answers kind cs) ∧
          (s.withSource a).after cs =
            ((s.withSource b).after cs).withSource
              (a.past ((s.withSource a).randomSteps cs).length) := by
  refine ⟨?_, ?_, s.after_source cs, fun _ _ _ => after_withSource⟩
  · intro k hk now w next
    obtain ⟨hword, hsource⟩ := source_of_randomStep (List.getElem?_eq_getElem hk)
    refine ⟨hword, now.machine.source.next.1, ?_, perform_random hword⟩
    rw [Source.getElem?_drawn (Nat.lt_succ_self k), hsource]
  · intro t c hspared
    rw [perform_source, hspared]
    rfl

/-- Takes a byte of which no bit is kept and one of which four are, and comes to a refused word. -/
def masked : List Command :=
  [.load (.bytes [0xC0, 0x00, 0xC1, 0x0F, 0xFF, 0xFF]), .step, .key 16 true, .step, .step]

theorem random_bytes_taken_in_turn_of_masked :
    let s := start (Machine.fresh 1 Source.silent) none
    let a := Source.cycle [0xAB, 0xCD]
    let b := Source.cycle [0xAB, 0xCD, 0x12]
    Source.drawn 2 a = Source.drawn 2 b ∧ Source.drawn 3 a ≠ Source.drawn 3 b ∧
      ((s.withSource b).randomSteps masked).length = 2 ∧
      ((s.withSource a).after masked).machine.v.slice 0 2 = [0x00, 0x0D] ∧
      ((s.withSource b).after masked).machine.v.slice 0 2 = [0x00, 0x0D] := by
  intro s a b
  have hbytes : Source.drawn 2 a = Source.drawn 2 b := by decide +kernel
  have hrun : ((s.withSource a).randomSteps masked).length = 2 ∧
      ((s.withSource a).after masked).machine.v.slice 0 2 = [0x00, 0x0D] := by
    decide +kernel
  obtain ⟨htwo, hv⟩ := hrun
  obtain ⟨-, -, -, hruns⟩ := random_bytes_taken_in_turn s masked
  obtain ⟨hlength, -, hafter⟩ := hruns a b 2 hbytes (Nat.le_of_eq htwo)
  have hsame (t : Session) (c : Source) : (t.withSource c).machine.v = t.machine.v := rfl
  refine ⟨hbytes, by decide +kernel, hlength.trans htwo, hv, ?_⟩
  rwa [hafter, hsame] at hv

end Session

end ChipEight
