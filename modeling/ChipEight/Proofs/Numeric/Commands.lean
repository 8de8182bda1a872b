import ChipEight.Proofs.Numeric.Drawing

/-!
Every command does in whole numbers what it does to a session (`Numeric.run_perform`), and so does
every sequence of them (`Numeric.after_numeric`).
-/

namespace ChipEight

namespace Numeric

/-- What a session answers, read as whole numbers. -/
def answer {α : Type} : Except Fault α × Session → EStateM.Result Trouble Numeric α
  | (.ok a, s) => .ok a s.numeric
  | (.error fault, s) => .error (.fault fault) s.numeric

def answers (r : Except Fault (Option Nat) × Session) :
    EStateM.Result Trouble Numeric (Option Int) :=
  answer (r.1.map fun count => count.map fun k => (k : Int), r.2)

theorem run_execute (m : Machine) (l : Option Listener) (h : List Bool) (w : Word) :
    (execute w.toNat).run (m.numeric l h) = outcome m l h w (Instruction.ofWord? w) := by
  have hf : ((w.toNat : Int) / 4096).toNat = w.family.toNat := by
    rw [Word.toNat_family]
    omega
  rw [execute, hf]
  rcases Nibble.exists_eq w.family with
    hw | hw | hw | hw | hw | hw | hw | hw | hw | hw | hw | hw | hw | hw | hw | hw
  all_goals simp only [Instruction.ofWord?, hw]
  · exact run_system m l h w
  · exact run_jumpWord m l h w
  · exact run_call m l h w
  · exact run_skipIfByte m l h w
  · exact run_skipUnlessByte m l h w
  · exact run_skipIfEqual m l h w
  · exact run_setByte m l h w
  · exact run_addByte m l h w
  · exact run_arithmetic m l h w
  · exact run_skipUnlessEqual m l h w
  · exact run_setIndex m l h w
  · exact run_jumpOffset m l h w
  · exact run_random m l h w
  · exact run_draw m l h w
  · exact run_key m l h w
  · exact run_misc m l h w

/-! ### Time -/

section Machine

variable (m : Machine) (l : Option Listener) (h : List Bool)

theorem run_countDelay :
    countDelay.run (m.numeric l h) =
      .ok () ({ m with delay := Machine.countDown m.delay }.numeric l h) := by
  have hd : (if 0 < (m.delay.toNat : Int) then (m.delay.toNat : Int) - 1 else m.delay.toNat) =
      ((Machine.countDown m.delay).toNat : Int) := by
    rw [Machine.toNat_countDown]
    split <;> omega
  refine congrArg (EStateM.Result.ok ()) ?_
  exact congrArg (fun delay => { m.numeric l h with delay }) hd

theorem run_countSound (hs : m.sound ≠ 0) :
    countSound.run (m.numeric l h) =
      .ok () ({ m with sound := Machine.countDown m.sound }.numeric l h) := by
  have hz : m.sound.toNat ≠ 0 := fun hz => hs (BitVec.eq_of_toNat_eq hz)
  have hd : (m.sound.toNat : Int) - 1 = (Machine.countDown m.sound).toNat := by
    rw [Machine.toNat_countDown]
    omega
  refine congrArg (EStateM.Result.ok ()) ?_
  exact congrArg (fun sound => { m.numeric l h with sound }) hd

end Machine

theorem run_setTone (m : Machine) (l : Option Listener) (h : List Bool) (on : Bool) :
    (setTone on).run (m.numeric l h) =
      answer
        (Session.settle ⟨m, l, h⟩ ⟨some on, { m with tone := on }, { m with tone := on }⟩) := by
  cases l with
  | none => rfl
  | some respond =>
      have hr : (m.numeric (some respond) h).heard = h := rfl
      have hl : (m.numeric (some respond) h).listener = some respond := rfl
      simp only [setTone, EStateM.run_bind, EStateM.run_get, Session.settle, hr, hl]
      cases hm : respond h.length with
      | none => rfl
      | some message => rfl

theorem sound_pos_iff (m : Machine) (l : Option Listener) (h : List Bool) :
    0 < (m.numeric l h).sound ↔ m.sound ≠ 0 := by
  have hs : (m.numeric l h).sound = m.sound.toNat := rfl
  have hz : (0 : Byte).toNat = 0 := rfl
  rw [hs, ne_eq, ← BitVec.toNat_inj, hz]
  omega

theorem run_tick (s : Session) : tick.run s.numeric = answer s.tick := by
  obtain ⟨m, l, h⟩ := s
  have hpos := sound_pos_iff { m with delay := Machine.countDown m.delay } l h
  have htone := run_setTone { m with delay := Machine.countDown m.delay } l h
  rw [tick, EStateM.run_bind, Session.numeric, run_countDelay]
  simp only [EStateM.run_bind, EStateM.run_get]
  by_cases hs : m.sound = 0
  · rw [if_neg (fun hp => hpos.mp hp hs), Session.tick, Machine.tick, if_pos hs]
    obtain ⟨_, _, _, _, _, _, _, _, _, _, _, _, tone, _⟩ := m
    cases tone with
    | true => exact htone false
    | false => rfl
  · have hcount := run_countSound { m with delay := Machine.countDown m.delay, tone := true }
    rw [if_pos (hpos.mpr hs), Session.tick, Machine.tick, if_neg hs]
    obtain ⟨_, _, _, _, _, _, _, _, _, _, _, _, tone, _⟩ := m
    cases tone with
    | true => exact hcount l h hs
    | false =>
        cases l with
        | none => exact hcount none h hs
        | some respond =>
            have ht := htone true
            change EStateM.run (setTone true >>= fun _ => countSound) _ = _
            cases hm : respond h.length with
            | none =>
                rw [Session.settle_heard rfl hm] at ht ⊢
                rw [EStateM.run_bind, ht]
                exact hcount (some respond) (h ++ [true]) hs
            | some message =>
                rw [Session.settle_failed rfl hm] at ht ⊢
                rw [EStateM.run_bind, ht]
                rfl

theorem run_count (m : Machine) (l : Option Listener) (h : List Bool) :
    (do
      countCycle
      let n ← get
      if n.cyclesPerTick ≤ n.sinceTick then
        set { n with sinceTick := 0 }
        tick : Program Unit).run (m.numeric l h) =
      answer (Session.settle ⟨m, l, h⟩ m.count) := by
  have hcycle : countCycle.run (m.numeric l h) =
      .ok () ({ m with cycles := m.cycles + 1, sinceTick := m.sinceTick + 1 }.numeric l h) := rfl
  have hdue : ({ m with cycles := m.cycles + 1, sinceTick := m.sinceTick + 1 }.numeric l h
      ).cyclesPerTick ≤
        ({ m with cycles := m.cycles + 1, sinceTick := m.sinceTick + 1 }.numeric l h).sinceTick ↔
      m.cyclesPerTick ≤ m.sinceTick + 1 := Int.ofNat_le
  simp only [EStateM.run_bind, EStateM.run_get, hcycle]
  by_cases hc : m.cyclesPerTick ≤ m.sinceTick + 1
  · rw [if_pos (hdue.mpr hc), Machine.count, if_pos hc, EStateM.run_bind, EStateM.run_set]
    exact run_tick ⟨{ m with cycles := m.cycles + 1, sinceTick := 0 }, l, h⟩
  · rw [if_neg (fun hp => hc (hdue.mp hp)), Machine.count, if_neg hc]
    rfl

theorem run_step (s : Session) : step.run s.numeric = answer s.step := by
  have hf := run_fetch s.machine s.listener s.heard
  have he := run_execute s.machine s.listener s.heard s.machine.fetch
  rw [Session.numeric, step, EStateM.run_bind, hf]
  dsimp only
  rw [EStateM.run_bind, he]
  cases hi : Instruction.ofWord? s.machine.fetch with
  | none =>
      rw [Session.step_refused hi]
      rfl
  | some i =>
      rw [Session.step_executed hi]
      exact run_count (s.machine.execute i) s.listener s.heard

/-! ### Commands -/

theorem integers_write (memory : Memory) (a : Address) (bytes : List Byte)
    (hb : a.toNat + bytes.length ≤ 4096) :
    integers (memory.write a bytes).toList =
      overlay (integers memory.toList) a.toNat (integers bytes) := by
  rw [Bank.toList_write memory a bytes hb]
  simp [integers, overlay]

theorem length_read {image : Image} {n : Nat} {data unread : List Byte}
    (h : image.read n = .ok (data, unread)) : data.length ≤ n := by
  unfold Image.read at h
  split at h
  · simp only [Except.ok.injEq, List.splitAt_eq, Prod.mk.injEq] at h
    rw [← h.1, List.length_take]
    exact Nat.min_le_left _ _
  · simp only [Except.ok.injEq, List.splitAt_eq, Prod.mk.injEq] at h
    rw [← h.1, List.length_take]
    exact Nat.min_le_left _ _
  · simp only [Except.ok.injEq, List.splitAt_eq, Prod.mk.injEq] at h
    rw [← h.1, List.length_take]
    omega
  · cases h

theorem with_overlay (m : Machine) (l : Option Listener) (h : List Bool) (a : Address)
    (bytes : List Byte) (hb : a.toNat + bytes.length ≤ 4096) :
    { m.numeric l h with
      memory := overlay (m.numeric l h).memory a.toNat (integers bytes) } =
      { m with memory := m.memory.write a bytes }.numeric l h := by
  have hm : (m.numeric l h).memory = integers m.memory.toList := rfl
  rw [hm, ← integers_write m.memory a bytes hb]
  rfl

theorem run_load (s : Session) (image : Image) :
    (perform (.load image)).run s.numeric = answers (s.perform (.load image)) := by
  obtain ⟨m, l, h⟩ := s
  have hfont := with_overlay m l h Machine.fontBase Font.bytes (by decide)
  simp only [perform, load, EStateM.run_bind, EStateM.run_modify, Session.numeric]
  rw [show (0 : Nat) = Machine.fontBase.toNat from rfl, hfont]
  cases hr : image.read 3584 with
  | error fault =>
      rw [Session.perform, Machine.load_of_fault m hr]
      rfl
  | ok pieces =>
      obtain ⟨data, unread⟩ := pieces
      have hlen := length_read hr
      have hprogram := with_overlay m.installFont l h Machine.programStart data (by
        rw [show Machine.programStart.toNat = 512 from rfl]
        omega)
      rw [Session.perform, Machine.load_of_read m hr]
      exact congrArg (EStateM.Result.ok (some (data.length : Int))) hprogram

theorem exists_key {key : Int} (hk : 0 ≤ key ∧ key < 16) : ∃ k : Nibble, key = k.toNat := by
  refine ⟨BitVec.ofInt 4 key, ?_⟩
  rw [BitVec.toNat_ofInt]
  omega

theorem run_setKey (s : Session) (key : Int) (pressed : Bool) :
    (perform (.key key pressed)).run s.numeric = answers (s.perform (.key key pressed)) := by
  obtain ⟨m, l, h⟩ := s
  simp only [perform, setKey, EStateM.run_bind, Session.numeric, Session.perform, Machine.setKey,
    Keypad.setKey]
  by_cases hk : 0 ≤ key ∧ key < 16
  · obtain ⟨k, rfl⟩ := exists_key hk
    have hd : (m.numeric l h).down = m.keypad.down.toList := rfl
    rw [if_neg (not_not_intro hk), keyOfInt?_toNat]
    simp only [EStateM.run_bind, EStateM.run_get, hd, run_replace]
    cases pressed with
    | true => rfl
    | false => rfl
  · have hn : keyOfInt? key = none := if_neg hk
    rw [if_pos hk, hn]
    rfl

theorem run_perform (s : Session) (c : Command) :
    (perform c).run s.numeric = answers (s.perform c) := by
  cases c with
  | step =>
      rw [perform, EStateM.run_bind, run_step, Session.perform]
      obtain ⟨r, t⟩ := s.step
      cases r <;> rfl
  | tick =>
      rw [perform, EStateM.run_bind, run_tick, Session.perform]
      obtain ⟨r, t⟩ := s.tick
      cases r <;> rfl
  | key key pressed => exact run_setKey s key pressed
  | load image => exact run_load s image
  | write address value =>
      rw [perform, EStateM.run_bind, Session.numeric, run_writeByte]
      rfl
  | push value =>
      rw [perform, EStateM.run_bind, Session.numeric, run_push]
      rfl
  | pop =>
      rw [perform, EStateM.run_bind, Session.numeric, run_pop]
      rfl

/-! ### Runs -/

theorem after_numeric (s : Session) (commands : List Command) :
    s.numeric.after commands = (s.after commands).numeric := by
  induction commands generalizing s with
  | nil => rfl
  | cons c commands ih =>
      have hp : perform c s.numeric = answers (s.perform c) := run_perform s c
      rw [after, hp, Session.after, ← ih]
      obtain ⟨r, t⟩ := s.perform c
      cases r with
      | ok count => rfl
      | error fault => rfl

theorem integers_fill {width : Nat} (b : Byte) :
    integers (Bank.fill b : Bank width Byte).toList =
      List.replicate (Bank.size width) (b.toNat : Int) := by
  rw [Bank.toList_fill, integers, List.map_replicate]

theorem fresh_numeric (cyclesPerTick : Nat) (source : Source) (listener : Option Listener) :
    fresh cyclesPerTick source listener =
      (Session.start (Machine.fresh cyclesPerTick source) listener).numeric := by
  have hmemory : overlay (List.replicate 4096 0) 0 (integers Font.bytes) =
      integers ((Bank.fill 0).write Machine.fontBase Font.bytes : Memory).toList := by
    rw [integers_write (Bank.fill 0) Machine.fontBase Font.bytes (by decide), integers_fill]
    rfl
  rw [fresh, hmemory]
  simp only [Session.numeric, Session.start, Machine.numeric, Machine.fresh, CallStack.empty,
    Keypad.idle, Screen.blank, Bank.toList_fill, List.map_replicate, cells_zero]
  rfl

end Numeric

end ChipEight
