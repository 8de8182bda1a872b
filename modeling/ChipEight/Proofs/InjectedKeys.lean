import ChipEight.Proofs.FrameSchedule

/-!
Where injected key events go. A poll hands the waiting events to the keypad in their order, up to
and including the first that names no key; that one is refused and gone, and those behind it wait
on. So at every moment what has been handed over and what still waits are together what was injected
(`Console.Delivers`).
-/

namespace ChipEight

/-- A key event whose number names no key. -/
def OffKeypad (event : Int × Bool) : Prop := event.1 < 0 ∨ 16 ≤ event.1

instance (event : Int × Bool) : Decidable (OffKeypad event) := inferInstanceAs (Decidable (_ ∨ _))

namespace Keypad

/-- The keypad after some key events, if all of them name keys. -/
def setKeys (k : Keypad) (events : List (Int × Bool)) : Except Fault Keypad :=
  events.foldlM (fun k event => k.setKey event.1 event.2) k

theorem setKey_of_off (k : Keypad) {event : Int × Bool} (h : OffKeypad event) :
    k.setKey event.1 event.2 = .error (.keyOutOfRange event.1) := by
  rw [setKey, (keyOfInt?_eq_none_iff event.1).mpr h]

theorem exists_setKey (k : Keypad) {event : Int × Bool} (h : ¬ OffKeypad event) :
    ∃ after, k.setKey event.1 event.2 = .ok after := by
  unfold setKey
  cases hk : keyOfInt? event.1 with
  | none => exact absurd ((keyOfInt?_eq_none_iff event.1).mp hk) h
  | some key => exact ⟨_, rfl⟩

theorem setKeys_cons {k after : Keypad} {event : Int × Bool}
    (h : k.setKey event.1 event.2 = .ok after) (events : List (Int × Bool)) :
    k.setKeys (event :: events) = after.setKeys events := by
  rw [setKeys, List.foldlM_cons, h]
  rfl

theorem setKeys_append {k next : Keypad} {events : List (Int × Bool)}
    (h : k.setKeys events = .ok next) (more : List (Int × Bool)) :
    k.setKeys (events ++ more) = next.setKeys more := by
  have he : events.foldlM (fun k event => k.setKey event.1 event.2) k = .ok next := h
  rw [setKeys, List.foldlM_append, he]
  rfl

theorem exists_setKeys (k : Keypad) {events : List (Int × Bool)}
    (h : ∀ event ∈ events, ¬ OffKeypad event) : ∃ after, k.setKeys events = .ok after := by
  induction events generalizing k with
  | nil => exact ⟨k, rfl⟩
  | cons event events ih =>
      obtain ⟨after, hafter⟩ := k.exists_setKey (h event List.mem_cons_self)
      rw [setKeys_cons hafter]
      exact ih after fun e he => h e (List.mem_cons_of_mem _ he)

end Keypad

namespace Recorder

/-- The events that a delivery hands to the keypad, the one that it refuses included. -/
def handed : List (Int × Bool) → Keypad → List (Int × Bool)
  | [], _ => []
  | event :: rest, k =>
      event ::
        match k.setKey event.1 event.2 with
        | .ok k => handed rest k
        | .error _ => []

theorem deliver_cons (k : Keypad) (event : Int × Bool) (rest : List (Int × Bool)) :
    deliver (event :: rest) k =
      match k.setKey event.1 event.2 with
      | .ok k => deliver rest k
      | .error fault => (.error fault, rest, k) := rfl

theorem handed_append_deliver (pending : List (Int × Bool)) (k : Keypad) :
    handed pending k ++ (deliver pending k).2.1 = pending := by
  induction pending generalizing k with
  | nil => rfl
  | cons event rest ih =>
      rw [handed, deliver_cons]
      cases k.setKey event.1 event.2 with
      | ok after => exact congrArg (event :: ·) (ih after)
      | error fault => rfl

theorem deliver_append {before : List (Int × Bool)} {k after : Keypad}
    (h : k.setKeys before = .ok after) (rest : List (Int × Bool)) :
    deliver (before ++ rest) k = deliver rest after := by
  induction before generalizing k with
  | nil =>
      cases h
      rfl
  | cons event before ih =>
      cases he : k.setKey event.1 event.2 with
      | ok next =>
          rw [Keypad.setKeys_cons he] at h
          rw [List.cons_append, deliver_cons, he]
          exact ih h
      | error fault =>
          rw [Keypad.setKeys, List.foldlM_cons, he] at h
          cases h

theorem deliver_all {pending : List (Int × Bool)} {k after : Keypad}
    (h : k.setKeys pending = .ok after) : deliver pending k = (.ok (), [], after) := by
  have hd := deliver_append h []
  rwa [List.append_nil] at hd

theorem deliver_off {before behind : List (Int × Bool)} {event : Int × Bool} {k after : Keypad}
    (h : k.setKeys before = .ok after) (hoff : OffKeypad event) :
    deliver (before ++ event :: behind) k = (.error (.keyOutOfRange event.1), behind, after) := by
  rw [deliver_append h, deliver_cons, after.setKey_of_off hoff]

end Recorder

namespace Console

/-- What is done to a console's recorder, by itself or in a step. -/
inductive Move where
  | inject (key : Int) (pressed : Bool)
  | poll
  | render (frame : Screen)
  | step

def Move.injection? : Move → Option (Int × Bool)
  | .inject key pressed => some (key, pressed)
  | .poll | .render _ | .step => none

def move (c : Console) : Move → Console
  | .inject key pressed => (c.inject key pressed).2
  | .poll => c.poll.2
  | .render frame =>
      let (display, host) := c.display.render frame c.host
      { c with display, host }
  | .step => c.step.2

/-- The key events that a move hands to the keypad. -/
def handing (c : Console) : Move → List (Int × Bool)
  | .inject _ _ | .render _ => []
  | .poll | .step =>
      match c.display with
      | .recorder r =>
          if r.pollsLeft = some 0 then [] else Recorder.handed r.pending c.machine.keypad
      | .window _ => []

def moveAll (c : Console) : List Move → Console
  | [] => c
  | m :: ms => (c.move m).moveAll ms

def handed (c : Console) : List Move → List (Int × Bool)
  | [] => []
  | m :: ms => c.handing m ++ (c.move m).handed ms

/-- A console with a recorder of which some key events were injected and some handed over. -/
def Delivers (injected handed : List (Int × Bool)) (c : Console) : Prop :=
  ∃ r, c.display = .recorder r ∧ r.pollsLeft = none ∧ handed ++ r.pending = injected

section Delivers

variable {injected given : List (Int × Bool)} {c : Console}

theorem poll_of_deliver {r : Recorder} (hr : c.display = .recorder r) (hleft : r.pollsLeft = none) :
    let delivery := Recorder.deliver r.pending c.machine.keypad
    c.poll =
      (delivery.1.map fun _ => true,
        { c with
          display := .recorder { r with pending := delivery.2.1 }
          machine := { c.machine with keypad := delivery.2.2 } }) := by
  obtain ⟨keep, kept, frames, pending, pollsLeft⟩ := r
  dsimp only at hleft
  subst hleft
  simp only [poll, hr, Display.poll, Recorder.poll]
  rfl

theorem Delivers.inject (h : Delivers injected given c) (key : Int) (pressed : Bool) :
    Delivers (injected ++ [(key, pressed)]) given (c.inject key pressed).2 := by
  obtain ⟨r, hr, hleft, hwhole⟩ := h
  refine ⟨r.inject key pressed, ?_, hleft, ?_⟩
  · simp only [Console.inject, hr]
  · rw [← hwhole, List.append_assoc]
    rfl

theorem Delivers.poll (h : Delivers injected given c) :
    Delivers injected (given ++ c.handing .poll) c.poll.2 := by
  obtain ⟨r, hr, hleft, hwhole⟩ := h
  rw [poll_of_deliver hr hleft]
  refine ⟨_, rfl, hleft, ?_⟩
  have hnever : r.pollsLeft ≠ some 0 := by
    rw [hleft]
    nofun
  simp only [handing, hr, if_neg hnever]
  rw [List.append_assoc, Recorder.handed_append_deliver, hwhole]

theorem Delivers.countFrame (h : Delivers injected given c) :
    Delivers injected given c.countFrame := by
  obtain ⟨r, hr, hleft, hwhole⟩ := h
  refine ⟨_, countFrame_recorder hr, ?_, ?_⟩
  · split
    · exact hleft
    · exact hleft
  · split
    · exact hwhole
    · exact hwhole

theorem Delivers.settle (h : Delivers injected given c) (turn : Turn) :
    Delivers injected given (c.settle turn) := by
  obtain ⟨r, hr, hleft, hwhole⟩ := h
  exact ⟨r, (settle_display c turn).trans hr, hleft, hwhole⟩

theorem Delivers.step (h : Delivers injected given c) :
    Delivers injected (given ++ c.handing .step) c.step.2 := by
  have hpolled : Delivers injected (given ++ c.handing .step) c.poll.2 := h.poll
  cases ht : c.turn? with
  | none =>
      obtain ⟨-, quitRequested, hstep⟩ := step_of_no_turn ht
      rw [hstep]
      exact hpolled
  | some turn =>
      rw [(step_of_turn? ht).2]
      exact (hpolled.settle turn).countFrame

theorem Delivers.move (h : Delivers injected given c) (m : Move) :
    Delivers (injected ++ m.injection?.toList) (given ++ c.handing m) (c.move m) := by
  cases m with
  | inject key pressed =>
      rw [handing, List.append_nil]
      exact h.inject key pressed
  | poll =>
      rw [Move.injection?, Option.toList_none, List.append_nil]
      exact h.poll
  | render frame =>
      obtain ⟨r, hr, hleft, hwhole⟩ := h
      rw [Move.injection?, Option.toList_none, List.append_nil, handing, List.append_nil]
      refine ⟨r.render frame, ?_, hleft, hwhole⟩
      simp only [Console.move, hr, Display.render]
  | step =>
      rw [Move.injection?, Option.toList_none, List.append_nil]
      exact h.step

theorem Delivers.moveAll (h : Delivers injected given c) (ms : List Move) :
    Delivers (injected ++ ms.filterMap Move.injection?) (given ++ c.handed ms) (c.moveAll ms) := by
  induction ms generalizing injected given c with
  | nil =>
      rw [List.filterMap_nil, handed, List.append_nil, List.append_nil]
      exact h
  | cons m ms ih =>
      have hinjected : (m :: ms).filterMap Move.injection? =
          m.injection?.toList ++ ms.filterMap Move.injection? := by
        rw [List.filterMap_cons]
        cases m.injection? <;> rfl
      have hm := ih (h.move m)
      rw [List.append_assoc, List.append_assoc] at hm
      rw [hinjected]
      exact hm

end Delivers

section Poll

variable {c : Console} {r : Recorder}

theorem poll_all (hr : c.display = .recorder r) (hleft : r.pollsLeft = none)
    (hall : ∀ event ∈ r.pending, ¬ OffKeypad event) :
    ∃ keypad, c.machine.keypad.setKeys r.pending = .ok keypad ∧
      c.poll =
        (.ok true,
          { c with
            display := .recorder { r with pending := [] }
            machine := { c.machine with keypad } }) := by
  obtain ⟨keypad, hkeypad⟩ := c.machine.keypad.exists_setKeys hall
  refine ⟨keypad, hkeypad, ?_⟩
  rw [poll_of_deliver hr hleft, Recorder.deliver_all hkeypad]
  rfl

theorem poll_off (hr : c.display = .recorder r) (hleft : r.pollsLeft = none)
    {before behind : List (Int × Bool)} {event : Int × Bool}
    (hpending : r.pending = before ++ event :: behind)
    (hbefore : ∀ e ∈ before, ¬ OffKeypad e) (hoff : OffKeypad event) :
    ∃ keypad, c.machine.keypad.setKeys before = .ok keypad ∧
      c.poll =
        (.error (.keyOutOfRange event.1),
          { c with
            display := .recorder { r with pending := behind }
            machine := { c.machine with keypad } }) := by
  obtain ⟨keypad, hkeypad⟩ := c.machine.keypad.exists_setKeys hbefore
  refine ⟨keypad, hkeypad, ?_⟩
  rw [poll_of_deliver hr hleft, hpending, Recorder.deliver_off hkeypad hoff]
  rfl

theorem poll_fails_iff (hr : c.display = .recorder r) (hleft : r.pollsLeft = none) :
    (∃ fault, c.poll.1 = .error fault) ↔ ∃ event ∈ r.pending, OffKeypad event := by
  cases hfirst : r.pending.find? fun event => OffKeypad event with
  | none =>
      have hall : ∀ event ∈ r.pending, ¬ OffKeypad event := by
        simpa using List.find?_eq_none.mp hfirst
      obtain ⟨keypad, -, hpoll⟩ := poll_all hr hleft hall
      rw [hpoll]
      constructor
      · rintro ⟨fault, hfault⟩
        cases hfault
      · rintro ⟨event, hmem, hoff⟩
        exact absurd hoff (hall event hmem)
  | some event =>
      obtain ⟨hoff, before, behind, hpending, hkeys⟩ := List.find?_eq_some_iff_append.mp hfirst
      have hevent : OffKeypad event := of_decide_eq_true hoff
      have hbefore : ∀ e ∈ before, ¬ OffKeypad e := by simpa using hkeys
      have hmem : event ∈ r.pending := by
        rw [hpending]
        exact List.mem_append_cons_self
      obtain ⟨keypad, -, hpoll⟩ := poll_off hr hleft hpending hbefore hevent
      rw [hpoll]
      exact iff_of_true ⟨_, rfl⟩ ⟨event, hmem, hevent⟩

theorem step_of_poll_error {p : Console} {fault : Fault} (h : c.poll = (.error fault, p)) :
    c.step = (.error fault, p) := by
  simp only [step, h]

end Poll

theorem injected_keys_delivered_once {keep : Option Int} {fresh : Recorder}
    (hfresh : Recorder.create keep none = .ok fresh) {c : Console}
    (hc : c.display = .recorder fresh) (moves : List Move) :
    let d := c.moveAll moves
    ∃ r, d.display = .recorder r ∧
      c.handed moves ++ r.pending = moves.filterMap Move.injection? ∧
      ((∃ fault, d.poll.1 = .error fault) ↔ ∃ event ∈ r.pending, OffKeypad event) ∧
      (∀ answer, d.poll.1 = .ok answer →
        ∃ keypad, d.machine.keypad.setKeys r.pending = .ok keypad ∧
          d.poll =
            (.ok true,
              { d with
                display := .recorder { r with pending := [] }
                machine := { d.machine with keypad } })) ∧
      ∀ before event behind, r.pending = before ++ event :: behind →
        (∀ e ∈ before, ¬ OffKeypad e) → OffKeypad event →
        ∃ keypad, d.machine.keypad.setKeys before = .ok keypad ∧
          let left : Console :=
            { d with
              display := .recorder { r with pending := behind }
              machine := { d.machine with keypad } }
          d.poll = (.error (.keyOutOfRange event.1), left) ∧
            d.step = (.error (.keyOutOfRange event.1), left) := by
  intro d
  have hstart : Delivers [] [] c := by
    rw [Recorder.eq_empty_of_create hfresh] at hc
    exact ⟨_, hc, rfl, rfl⟩
  obtain ⟨r, hr, hleft, hwhole⟩ := hstart.moveAll moves
  rw [List.nil_append, List.nil_append] at hwhole
  have hfails := poll_fails_iff hr hleft
  refine ⟨r, hr, hwhole, hfails, ?_, ?_⟩
  · intro answer hanswer
    have hall : ∀ event ∈ r.pending, ¬ OffKeypad event := by
      intro event hmem hoff
      obtain ⟨fault, hfault⟩ := hfails.mpr ⟨event, hmem, hoff⟩
      rw [hfault] at hanswer
      cases hanswer
    exact poll_all hr hleft hall
  · intro before event behind hpending hbefore hoff
    obtain ⟨keypad, hkeypad, hpoll⟩ := poll_off hr hleft hpending hbefore hoff
    exact ⟨keypad, hkeypad, hpoll, step_of_poll_error hpoll⟩

/-- A step that fails for the second of three events, and two more events around a frame. -/
def mistyped : List Move :=
  [.inject 3 true, .inject 16 true, .inject 3 false, .step, .inject (-1) true, .render Screen.blank,
    .inject 5 false]

theorem injected_keys_delivered_once_of_mistyped :
    ∃ d r s, d = blinking.moveAll mistyped ∧ d.display = .recorder r ∧
      blinking.handed mistyped = [(3, true), (16, true)] ∧
      r.pending = [(3, false), (-1, true), (5, false)] ∧
      d.step.1 = .error (.keyOutOfRange (-1)) ∧ d.step.2.display = .recorder s ∧
      s.pending = [(5, false)] ∧ d.step.2.machine.keypad.released = some 3 ∧
      d.step.2.machine.cycles = 0 ∧ d.step.2.sinceFrame = 0 := by
  have hfresh : Recorder.create (some 2) none = .ok (Recorder.empty (some 2) none) := rfl
  have hc : blinking.display = .recorder (Recorder.empty (some 2) none) := rfl
  obtain ⟨r, hr, hwhole, -, -, hrefused⟩ := injected_keys_delivered_once hfresh hc mistyped
  have hhanded : blinking.handed mistyped = [(3, true), (16, true)] := by decide +kernel
  have hpending : r.pending = [(3, false), (-1, true), (5, false)] := by
    rw [hhanded] at hwhole
    exact List.append_cancel_left hwhole
  have hbefore : ∀ e ∈ [((3 : Int), false)], ¬ OffKeypad e := by decide
  have hoff : OffKeypad (-1, true) := by decide
  obtain ⟨keypad, hkeypad, -, hstep⟩ :=
    hrefused [(3, false)] (-1, true) [(5, false)] hpending hbefore hoff
  have hstill : (blinking.moveAll mistyped).machine.cycles = 0 ∧
      (blinking.moveAll mistyped).sinceFrame = 0 := by
    decide +kernel
  have hreleased : keypad.released = some 3 := by
    have hset : (blinking.moveAll mistyped).machine.keypad.setKeys [(3, false)] = .ok keypad :=
      hkeypad
    cases hset
    rfl
  refine ⟨_, r, { r with pending := [(5, false)] }, rfl, hr, hhanded, hpending, ?_⟩
  rw [hstep]
  exact ⟨rfl, rfl, rfl, hreleased, hstill.1, hstill.2⟩

end Console

end ChipEight
