import ChipEight.Proofs.FrameSchedule
import ChipEight.Proofs.Renderings
import ChipEight.Proofs.WindowClosing

/-!
A window and a recorder drive the machine alike. While nobody asks to quit, a console with an open
window and one with a recorder into which the window's key events are injected go through the same
machines, fail in the same steps and render the same frames (`Console.Twins`). The host is given a
frame in colours, which show it (`Host.frames_of_pictures`).
-/

namespace ChipEight

def Call.picture? : Call → Option Pixels
  | .blitArray pixels => some pixels
  | _ => none

namespace Event

/-- The key event that a window makes of an event, if it names a key. -/
def key? : Event → Option (Int × Bool)
  | .down code => (Keymap.standard.key? code).map fun key => ((key.toNat : Int), true)
  | .up code => (Keymap.standard.key? code).map fun key => ((key.toNat : Int), false)
  | _ => none

/-- Whether an event leaves the window open. An interrupt is none of the host's events: it takes the
poll away from its whole batch. -/
def stays : Event → Bool
  | .quit => false
  | .down code => code != Window.escape
  | .interrupt => false
  | _ => true

theorem interrupt_notMem {batch : List Event} (h : ∀ e ∈ batch, e.stays = true) :
    .interrupt ∉ batch := by
  intro hmem
  cases h .interrupt hmem

theorem forall_getD {P : List Event → Prop} {batches : List (List Event)}
    (h : ∀ batch ∈ batches, P batch) (hnil : P []) (n : Nat) : P (batches.getD n []) := by
  rw [List.getD_eq_getElem?_getD]
  cases hb : batches[n]? with
  | none => exact hnil
  | some batch => exact h batch (List.mem_of_getElem? hb)

theorem headD_drop (batches : List (List Event)) (n : Nat) :
    (batches.drop n).headD [] = batches.getD n [] := by
  rw [List.headD_eq_head?_getD, List.head?_drop, List.getD_eq_getElem?_getD]

end Event

theorem Keypad.setKey_toNat (k : Keypad) (key : Nibble) (pressed : Bool) :
    k.setKey key.toNat pressed = .ok (k.set key pressed) := by
  rw [setKey, keyOfInt?_toNat]

theorem deliver_key? {batch : List Event} (h : ∀ e ∈ batch, e.stays = true) (k : Keypad) :
    (Window.deliver batch k).1 = true ∧
      Recorder.deliver (batch.filterMap Event.key?) k =
        (.ok (), [], (Window.deliver batch k).2) := by
  induction batch generalizing k with
  | nil => exact ⟨rfl, rfl⟩
  | cons e batch ih =>
      have hrest := ih fun e he => h e (List.mem_cons_of_mem _ he)
      have he : e.stays = true := h e List.mem_cons_self
      cases e with
      | quit => cases he
      | interrupt => cases he
      | other => exact hrest k
      | down code =>
          have hne : code ≠ Window.escape := by simpa [Event.stays] using he
          rw [Window.deliver, if_neg hne]
          cases hk : Keymap.standard.key? code with
          | none => simpa [Event.key?, hk] using hrest k
          | some key =>
              simpa [Event.key?, hk, Recorder.deliver, Keypad.setKey_toNat] using
                hrest (k.set key true)
      | up code =>
          rw [Window.deliver]
          cases hk : Keymap.standard.key? code with
          | none => simpa [Event.key?, hk] using hrest k
          | some key =>
              simpa [Event.key?, hk, Recorder.deliver, Keypad.setKey_toNat] using
                hrest (k.set key false)

namespace Host

theorem events_of_batch {h : Host} {batch : List Event} (hb : h.batches.headD [] = batch)
    (hn : .interrupt ∉ batch) :
    h.events = (.ok batch, { h with batches := h.batches.tail }) := by
  obtain ⟨batches, videoErrors, mixer, channels, mixerError, missing, log, memory⟩ := h
  cases batches with
  | nil =>
      cases hb
      rfl
  | cons first rest =>
      cases hb
      exact congrArg (fun result => (result, _)) (if_neg hn)

/-- The pictures that the host was given, the earliest first. -/
def pictures (h : Host) : List Pixels := h.calls.filterMap Call.picture?

/-- The frames that these pictures show. -/
def frames (h : Host) : List Screen := h.pictures.map fun pixels : Pixels => pixels

theorem frames_of_pictures {h k : Host} {rendered : List Screen}
    (hp : k.pictures = h.pictures ++ rendered.map Screen.pixels) :
    k.frames = h.frames ++ rendered := by
  have hshown : Pixels.screen ∘ Screen.pixels = id := funext Screen.screen_pixels
  rw [frames, frames, hp, List.map_append, List.map_map, hshown, List.map_id]

theorem pictures_record (h : Host) (call : Call) :
    (h.record call).pictures = h.pictures ++ call.picture?.toList := by
  rw [pictures, calls_record, filterMap_concat]
  rfl

/-- What a console with a window takes from its host and gives to it. -/
def exchange (h : Host) : List (List Event) × List Pixels := (h.batches, h.pictures)

theorem record_exchange (h : Host) {call : Call} (hc : call.picture? = none) :
    (h.record call).exchange = h.exchange := by
  rw [exchange, pictures_record, hc, Option.toList_none, List.append_nil]
  rfl

end Host

theorem Beeper.ring_exchange (b : Beeper) (on : Bool) (h : Host) :
    (b.ring on h).2.exchange = h.exchange := by
  cases b with
  | silent playing => cases on <;> rfl
  | tone playing =>
      cases on <;> cases playing
      · rfl
      · exact h.record_exchange rfl
      · exact h.record_exchange rfl
      · rfl

theorem Window.render_exchange {w : Window} (hw : w.running = true) (s : Screen) (h : Host) :
    (w.render s h).exchange = (h.batches, h.pictures ++ [s.pixels]) := by
  rw [Window.render, if_pos hw, Host.record_exchange _ rfl, Host.record_exchange _ rfl,
    Host.record_exchange _ rfl, Host.exchange, Host.pictures_record]
  rfl

theorem Window.running_of_start {w v : Window} {h k : Host} (hs : w.start h = (.ok (), v, k)) :
    v.running = true := by
  rcases w.start_cases h with ⟨-, l, hok, -⟩ | ⟨-, fault, l, herror, -⟩
  · rw [hok] at hs
    cases hs
    rfl
  · rw [herror] at hs
    cases hs

namespace Console

theorem settle_exchange (c : Console) (turn : Turn) :
    (c.settle turn).host.exchange = c.host.exchange := by
  unfold settle
  split
  · rfl
  · exact Beeper.ring_exchange _ _ _

theorem countFrame_window {c : Console} {w : Window} (h : c.display = .window w)
    (hw : w.running = true) :
    c.countFrame.display = .window w ∧
      c.countFrame.host.exchange =
        (c.host.batches,
          c.host.pictures ++
            if c.cyclesPerFrame ≤ c.sinceFrame + 1 then [c.machine.screen.pixels] else []) := by
  unfold countFrame
  split
  · simp only [render, h, Display.render]
    exact ⟨trivial, Window.render_exchange hw _ _⟩
  · rw [List.append_nil]
    exact ⟨h, rfl⟩

theorem step_of_poll {c p : Console} (h : c.poll = (.ok true, p)) :
    c.step =
      match p.machine.step with
      | .error fault => (.error fault, p)
      | .ok turn => (.ok (), (p.settle turn).countFrame) := by
  simp only [step, h, execute]
  cases p.machine.step <;> rfl

theorem turn?_of_poll {c p : Console} (h : c.poll = (.ok true, p)) :
    c.turn? = p.machine.step.toOption := by
  simp only [turn?, h]

/-- Injects the key events that a window would make of a batch. -/
def offer (d : Console) (batch : List Event) : Console :=
  (batch.filterMap Event.key?).foldl (fun e key => (e.inject key.1 key.2).2) d

theorem foldl_inject {d : Console} {r : Recorder} (h : d.display = .recorder r)
    (keys : List (Int × Bool)) :
    keys.foldl (fun e key => (e.inject key.1 key.2).2) d =
      { d with display := .recorder { r with pending := r.pending ++ keys } } := by
  induction keys generalizing d r with
  | nil =>
      rw [List.append_nil, ← h]
      rfl
  | cons key keys ih =>
      have hi : (d.inject key.1 key.2).2 =
          { d with display := .recorder (r.inject key.1 key.2) } := by
        simp only [inject, h]
      rw [List.foldl_cons, hi, ih rfl]
      simp only [Recorder.inject, List.append_assoc, List.singleton_append]

/-- A console with an open window, and one with a recorder that has nothing to deliver and does not
quit, on the same machine and equally far from their next frames. -/
structure Twins (c d : Console) : Prop where
  machine_eq : d.machine = c.machine
  sinceFrame_eq : d.sinceFrame = c.sinceFrame
  period_eq : d.cyclesPerFrame = c.cyclesPerFrame
  window : ∃ w, c.display = .window w ∧ w.running = true
  recorder : ∃ r, d.display = .recorder r ∧ r.pending = [] ∧ r.pollsLeft = none

section Twins

variable {c d : Console} {batch : List Event}

theorem poll_window {w : Window} (hw : c.display = .window w) (hrun : w.running = true)
    (hb : c.host.batches.headD [] = batch) (hs : ∀ e ∈ batch, e.stays = true) :
    c.poll = (.ok true, { c with
      host := { c.host with batches := c.host.batches.tail }
      machine := { c.machine with
        keypad := (Window.deliver batch c.machine.keypad).2 } }) := by
  simp only [poll, hw, Display.poll, Window.poll, if_pos hrun,
    Host.events_of_batch hb (Event.interrupt_notMem hs), (deliver_key? hs c.machine.keypad).1]

theorem poll_offer {r : Recorder} (hr : d.display = .recorder r) (hpending : r.pending = [])
    (hleft : r.pollsLeft = none) (hs : ∀ e ∈ batch, e.stays = true) :
    (d.offer batch).poll = (.ok true, { d with
      machine := { d.machine with
        keypad := (Window.deliver batch d.machine.keypad).2 } }) := by
  have hd := (deliver_key? hs d.machine.keypad).2
  obtain ⟨keep, kept, frames, pending, pollsLeft⟩ := r
  dsimp only at hpending hleft
  subst hpending hleft
  rw [offer, foldl_inject hr]
  simp only [poll, Display.poll, Recorder.poll, List.nil_append, hd, hr]
  rfl

theorem Twins.poll (h : Twins c d) (hb : c.host.batches.headD [] = batch)
    (hs : ∀ e ∈ batch, e.stays = true) :
    ∃ p q, c.poll = (.ok true, p) ∧ (d.offer batch).poll = (.ok true, q) ∧ Twins p q ∧
      p.host.exchange = (c.host.batches.tail, c.host.pictures) := by
  obtain ⟨hm, hsince, hperiod, ⟨w, hw, hrun⟩, r, hr, hpending, hleft⟩ := h
  refine ⟨_, _, poll_window hw hrun hb hs, poll_offer hr hpending hleft hs, ?_, rfl⟩
  exact ⟨by rw [hm], hsince, hperiod, ⟨w, hw, hrun⟩, r, hr, hpending, hleft⟩

theorem Twins.count (h : Twins c d) (turn : Turn) :
    Twins (c.settle turn).countFrame (d.settle turn).countFrame := by
  obtain ⟨-, hsince, hperiod, ⟨w, hw, hrun⟩, r, hr, hpending, hleft⟩ := h
  have hc := (countFrame_window ((settle_display c turn).trans hw) hrun).1
  have hd := countFrame_recorder ((settle_display d turn).trans hr)
  have hperiods : (d.settle turn).cyclesPerFrame = (c.settle turn).cyclesPerFrame := by
    rw [cyclesPerFrame_of_rates (settle_rates c turn),
      cyclesPerFrame_of_rates (settle_rates d turn), hperiod]
  refine ⟨?_, ?_, ?_, ⟨w, hc, hrun⟩, _, hd, ?_, ?_⟩
  · rw [countFrame_machine, countFrame_machine, settle_machine, settle_machine]
  · rw [countFrame_sinceFrame, countFrame_sinceFrame, settle_sinceFrame, settle_sinceFrame, hsince,
      hperiods]
  · rw [cyclesPerFrame_of_rates (countFrame_rates _), cyclesPerFrame_of_rates (countFrame_rates _),
      hperiods]
  · split
    · exact hpending
    · exact hpending
  · split
    · exact hleft
    · exact hleft

theorem frame?_of_poll {p : Console} (h : c.poll = (.ok true, p)) :
    c.frame? =
      match p.machine.step with
      | .error _ => none
      | .ok turn =>
          if p.cyclesPerFrame ≤ p.sinceFrame + 1 then some turn.settled.screen else none := by
  have hp : p = c.poll.2 := by rw [h]
  have hperiod : p.cyclesPerFrame = c.cyclesPerFrame := by
    rw [hp]
    rfl
  have hsince : p.sinceFrame = c.sinceFrame := by
    rw [hp]
    rfl
  have ht := turn?_of_poll h
  cases hm : p.machine.step with
  | error fault =>
      rw [hm] at ht
      rw [frame?, screen?_of_no_turn ht, ite_self]
  | ok turn =>
      rw [hm] at ht
      rw [frame?, screen?_of_turn? ht, hperiod, hsince]

theorem Twins.step (h : Twins c d) (hb : c.host.batches.headD [] = batch)
    (hs : ∀ e ∈ batch, e.stays = true) :
    (d.offer batch).step.1 = c.step.1 ∧ Twins c.step.2 (d.offer batch).step.2 ∧
      c.step.2.host.exchange =
        (c.host.batches.tail,
          c.host.pictures ++ (d.offer batch).frame?.toList.map Screen.pixels) := by
  -- Past the poll both execute the one machine, and nothing more is taken from the host.
  obtain ⟨p, q, hp, hq, hpq, hexchange⟩ := h.poll hb hs
  rw [step_of_poll hp, step_of_poll hq, frame?_of_poll hq, hpq.machine_eq]
  cases p.machine.step with
  | error fault =>
      rw [Option.toList_none, List.map_nil, List.append_nil]
      exact ⟨rfl, hpq, hexchange⟩
  | ok turn =>
      refine ⟨rfl, hpq.count turn, ?_⟩
      obtain ⟨w, hw, hrun⟩ := hpq.window
      have hcount := (countFrame_window ((settle_display p turn).trans hw) hrun).2
      have hsettled := (settle_exchange p turn).trans hexchange
      obtain ⟨hbatches, hpictures⟩ := Prod.mk.inj hsettled
      rw [hcount, hbatches, hpictures, cyclesPerFrame_of_rates (settle_rates p turn),
        settle_sinceFrame, settle_machine, hpq.period_eq, hpq.sinceFrame_eq]
      split <;> rfl

end Twins

def steps (c : Console) : Nat → Console
  | 0 => c
  | n + 1 => (c.steps n).step.2

/-- The console after a number of steps, with the next batch injected before each. -/
def fed (d : Console) (batches : List (List Event)) : Nat → Console
  | 0 => d
  | n + 1 => ((d.fed batches n).offer (batches.getD n [])).step.2

/-- The console on which the next step is made. -/
def offered (d : Console) (batches : List (List Event)) (n : Nat) : Console :=
  (d.fed batches n).offer (batches.getD n [])

section Fed

variable {c d : Console}

theorem Twins.next {batches : List (List Event)} {n : Nat}
    (h : Twins (c.steps n) (d.fed batches n))
    (hb : (c.steps n).host.batches = batches.drop n)
    (hs : ∀ batch ∈ batches, ∀ e ∈ batch, e.stays = true) :
    (d.offered batches n).step.1 = (c.steps n).step.1 ∧
      Twins (c.steps (n + 1)) (d.fed batches (n + 1)) ∧
      (c.steps (n + 1)).host.exchange =
        (batches.drop (n + 1),
          (c.steps n).host.pictures ++
            (d.offered batches n).frame?.toList.map Screen.pixels) := by
  have hhead : (c.steps n).host.batches.headD [] = batches.getD n [] := by
    rw [hb, Event.headD_drop]
  have hnext := h.step hhead (Event.forall_getD hs nofun n)
  rw [hb, List.tail_drop] at hnext
  exact hnext

theorem Twins.steps (h : Twins c d)
    (hs : ∀ batch ∈ c.host.batches, ∀ e ∈ batch, e.stays = true) (n : Nat) :
    Twins (c.steps n) (d.fed c.host.batches n) ∧
      (c.steps n).host.exchange =
        (c.host.batches.drop n,
          c.host.pictures ++
            (frames ((List.range n).map (d.offered c.host.batches))).map Screen.pixels) := by
  induction n with
  | zero =>
      rw [List.drop_zero, List.range_zero, List.map_nil, frames, List.filterMap_nil,
        List.map_nil, List.append_nil]
      exact ⟨h, rfl⟩
  | succ n ih =>
      obtain ⟨htwins, hexchange⟩ := ih
      obtain ⟨hbatches, hpictures⟩ := Prod.mk.inj hexchange
      obtain ⟨-, hnext, hgiven⟩ := htwins.next hbatches hs
      refine ⟨hnext, hgiven.trans ?_⟩
      rw [hpictures, List.range_succ, List.map_append, List.map_singleton, frames_concat,
        List.map_append, List.append_assoc]

theorem Kept.offer {P : List Console → Console → Prop} (hP : Kept P) {seen : List Console}
    (h : P seen d) (batch : List Event) : P seen (d.offer batch) := by
  unfold Console.offer
  induction batch.filterMap Event.key? generalizing d with
  | nil => exact h
  | cons key keys ih => exact ih (hP.inject seen d key.1 key.2 h)

theorem Kept.fed {P : List Console → Console → Prop} (hP : Kept P) (h : P [] d)
    (batches : List (List Event)) (n : Nat) :
    P ((List.range n).map (d.offered batches)) (d.fed batches n) := by
  induction n with
  | zero => exact h
  | succ n ih =>
      rw [List.range_succ, List.map_append, List.map_singleton]
      exact hP.step _ _ (hP.offer ih _)

end Fed

theorem window_and_recorder_agree {machine : Machine} {scale : Int} {title : String}
    {h k l : Host} {w : Window} {keep : Option Int} {r : Recorder} {audible other : Beeper}
    {rate frameRate : Int} {c d : Console}
    (hw : (Window.create scale title).start h = (.ok (), w, k))
    (hr : Recorder.create keep none = .ok r)
    (hc : create machine (.window w) audible k rate frameRate = .ok c)
    (hd : create machine (.recorder r) other l rate frameRate = .ok d)
    (hs : ∀ batch ∈ k.batches, ∀ e ∈ batch, e.stays = true) (n : Nat) :
    let rendered := frames ((List.range n).map (d.offered k.batches))
    (d.fed k.batches n).machine = (c.steps n).machine ∧
      (d.fed k.batches n).sinceFrame = (c.steps n).sinceFrame ∧
      (d.offered k.batches n).step.1 = (c.steps n).step.1 ∧
      (c.steps n).host.pictures = k.pictures ++ rendered.map Screen.pixels ∧
      (c.steps n).host.frames = k.frames ++ rendered ∧
      ∃ s, (d.fed k.batches n).display = .recorder s ∧ s.Shows (keep.map Int.toNat) rendered := by
  intro rendered
  obtain ⟨hcperiod, -, hcmachine, hcdisplay, hhost, hcsince⟩ := create_cases hc
  obtain ⟨hdperiod, hpos, hdmachine, hddisplay, -, hdsince⟩ := create_cases hd
  have hempty := Recorder.eq_empty_of_create hr
  have htwins : Twins c d :=
    { machine_eq := hdmachine.trans hcmachine.symm
      sinceFrame_eq := hdsince.trans hcsince.symm
      period_eq := hdperiod.trans hcperiod.symm
      window := ⟨w, hcdisplay, Window.running_of_start hw⟩
      recorder := ⟨r, hddisplay, by rw [hempty]; rfl, by rw [hempty]; rfl⟩ }
  subst hhost
  obtain ⟨hnow, hexchange⟩ := htwins.steps hs n
  obtain ⟨hbatches, hpictures⟩ := Prod.mk.inj hexchange
  have hschedule := (kept_onSchedule hpos).fed (onSchedule_create hr hd) c.host.batches n
  exact ⟨hnow.machine_eq, hnow.sinceFrame_eq, (hnow.next hbatches hs).1, hpictures,
    Host.frames_of_pictures hpictures, hschedule.shows⟩

/-- Waits for a key, then draws its digit over and over. -/
def echoing : Machine :=
  ((Machine.fresh 14 Source.silent).load
    (.bytes [0xF2, 0x0A, 0xF2, 0x29, 0xD0, 0x15, 0x12, 0x04])).machine

/-- The keys 1 and 0 of the keypad, and events that name no key. -/
def typed : Host :=
  { Host.idle with
    batches := [[.other, .down 49], [.down 999, .down 120, .up 49], [], [.up 120, .up 120]] }

theorem window_and_recorder_agree_on_typed :
    ∃ w k r c d, (Window.create 3 Window.defaultTitle).start typed = (.ok (), w, k) ∧
      Recorder.create (some 1) none = .ok r ∧
      create echoing (.window w) (.tone false) k 100 40 = .ok c ∧
      create echoing (.recorder r) (.silent false) Host.bare 100 40 = .ok d ∧
      (c.steps 9).machine.cycles = 9 ∧ (d.fed k.batches 9).machine = (c.steps 9).machine ∧
      (c.steps 9).host.pictures =
        (frames ((List.range 9).map (d.offered k.batches))).map Screen.pixels ∧
      (c.steps 9).host.frames = frames ((List.range 9).map (d.offered k.batches)) ∧
      ∃ s, (d.fed k.batches 9).display = .recorder s ∧ s.frames = 4 ∧
        s.snapshots = (c.steps 9).host.frames.drop 3 := by
  obtain ⟨w, k, c, hw, hc, hk, hcycles, hcount⟩ : ∃ w k c,
      (Window.create 3 Window.defaultTitle).start typed = (.ok (), w, k) ∧
      create echoing (.window w) (.tone false) k 100 40 = .ok c ∧
      k.exchange = (typed.batches, []) ∧ (c.steps 9).machine.cycles = 9 ∧
      (c.steps 9).host.frames.length = 4 :=
    ⟨_, _, _, rfl, rfl, rfl, by decide +kernel, by decide +kernel⟩
  obtain ⟨r, hr⟩ : ∃ r, Recorder.create (some 1) none = .ok r := ⟨_, rfl⟩
  obtain ⟨d, hd⟩ :
      ∃ d, create echoing (.recorder r) (.silent false) Host.bare 100 40 = .ok d := ⟨_, rfl⟩
  obtain ⟨hbatches, hfresh⟩ := Prod.mk.inj hk
  have hs : ∀ batch ∈ k.batches, ∀ e ∈ batch, e.stays = true := by
    rw [hbatches]
    decide
  obtain ⟨hmachine, -, -, hpictures, hframes, s, hdisplay, -, hrecorded, hkept⟩ :=
    window_and_recorder_agree hw hr hc hd hs 9
  have hnone : k.frames = [] := by rw [Host.frames, hfresh, List.map_nil]
  rw [hfresh, List.nil_append] at hpictures
  rw [hnone, List.nil_append] at hframes
  rw [← hframes] at hrecorded hkept
  have hlatest : s.snapshots = (c.steps 9).host.frames.drop 3 := by
    rw [hkept, Option.map_some, Recorder.latest, hcount]
    rfl
  exact ⟨w, k, r, c, d, hw, hr, hc, hd, hcycles, hmachine, hpictures, hframes, s, hdisplay,
    hrecorded.trans hcount, hlatest⟩

end Console

end ChipEight
