import ChipEight.Proofs.Muffling

/-!
A run may be cut in two. A loop of `m + n` rounds is one of `m` rounds that goes on for `n` more
(`Console.loop_add`). Between two runs the beeper is stopped, and nothing but the beeper and the
host's sound calls takes notice of that (`Console.hushed`).
-/

namespace ChipEight

def Call.isSound : Call → Bool
  | .play _ => true
  | .stop => true
  | _ => false

namespace Host

/-- The host with the calls that start and stop a tone left out of its log. -/
def hushed (h : Host) : Host := { h with log := h.log.filter fun call => !call.isSound }

theorem hushed_hushed (h : Host) : h.hushed.hushed = h.hushed := by
  simp only [hushed, List.filter_filter, Bool.and_self]

theorem record_hushed (h : Host) {call : Call} (hc : call.isSound = false) :
    h.hushed.record call = (h.record call).hushed := by
  simp [hushed, record, hc]

theorem hushed_record (h : Host) {call : Call} (hc : call.isSound = true) :
    (h.record call).hushed = h.hushed := by
  simp [hushed, record, hc]

theorem events_hushed (h : Host) : h.hushed.events = (h.events.1, h.events.2.hushed) := by
  obtain ⟨batches, videoErrors, mixer, channels, mixerError, missing, log, memory⟩ := h
  cases batches <;> rfl

end Host

namespace Beeper

/-- The beeper when it is not playing. -/
def hushed : Beeper → Beeper
  | tone _ => tone false
  | silent _ => silent false

theorem hushed_hushed (b : Beeper) : b.hushed.hushed = b.hushed := by
  cases b <;> rfl

theorem stop_hushed (b : Beeper) (h : Host) : (b.stop h).1 = b.hushed := by
  cases b with
  | tone playing => cases playing <;> rfl
  | silent playing => rfl

theorem hushed_ring (b : Beeper) (on : Bool) (h : Host) :
    (b.ring on h).1.hushed = b.hushed ∧ (b.ring on h).2.hushed = h.hushed := by
  cases b with
  | silent playing => cases on <;> exact ⟨rfl, rfl⟩
  | tone playing =>
      cases on <;> cases playing
      · exact ⟨rfl, rfl⟩
      · exact ⟨rfl, h.hushed_record rfl⟩
      · exact ⟨rfl, h.hushed_record rfl⟩
      · exact ⟨rfl, rfl⟩

end Beeper

namespace Muffling

theorem isSound_of_not_audio {call : Call} (hc : call.isAudio = false) : call.isSound = false := by
  cases call with
  | play loops => cases hc
  | stop => cases hc
  | _ => rfl

/-- Stopping the beeper. -/
def hush : Muffling where
  beeper := Beeper.hushed
  host := Host.hushed
  beeper_beeper := Beeper.hushed_hushed
  host_host := Host.hushed_hushed
  ring := Beeper.hushed_ring
  record h _ hc := h.record_hushed (isSound_of_not_audio hc)
  events := Host.events_hushed

end Muffling

namespace Console

/-- The console with its beeper stopped, on a host that remembers no sound. -/
def hushed (c : Console) : Console := { c with beeper := c.beeper.hushed, host := c.host.hushed }

theorem hushed_silence (c : Console) : c.silence.hushed = c.hushed :=
  Muffling.hush.silence_console c

theorem bisimulation_hushed : Bisimulation fun c d => c.hushed = d.hushed :=
  Muffling.hush.bisimulation

/-- What `n` more rounds make of a loop, which is nothing once it is over. -/
def proceed (realtime : Bool) (n : Nat) : Ending × Nat × Console → Ending × Nat × Console
  | (.limit, executed, c) => loop realtime c executed n
  | ended => ended

theorem loop_add (realtime : Bool) (c : Console) (executed m n : Nat) :
    loop realtime c executed (m + n) = proceed realtime n (loop realtime c executed m) := by
  induction m generalizing c executed with
  | zero =>
      rw [Nat.zero_add]
      rfl
  | succ m ih =>
      rw [Nat.succ_add, loop, loop]
      obtain ⟨r, d⟩ := c.step
      cases r with
      | error fault => rfl
      | ok u =>
          dsimp only
          split
          · rfl
          · exact ih _ _

theorem loop_add_left (realtime : Bool) (c : Console) (before executed n : Nat) :
    loop realtime c (before + executed) n =
      ((loop realtime c executed n).1, before + (loop realtime c executed n).2.1,
        (loop realtime c executed n).2.2) := by
  induction n generalizing c executed with
  | zero => rfl
  | succ n ih =>
      rw [loop, loop]
      obtain ⟨r, d⟩ := c.step
      cases r with
      | error fault => rfl
      | ok u =>
          dsimp only
          split
          · rfl
          · rw [Nat.add_assoc]
            exact ih _ _

theorem loop_full {realtime : Bool} {c d : Console} {executed n k : Nat} {e : Ending}
    (h : loop realtime c executed n = (e, k, d)) (hk : executed + n ≤ k) : e = .limit := by
  induction n generalizing c executed with
  | zero =>
      cases h
      rfl
  | succ n ih =>
      rw [loop] at h
      split at h
      · cases h
        omega
      · split at h
        · cases h
          omega
        · exact ih h (by omega)

/-- What a console was made for: instructions to a second, and instructions to a frame. -/
def rates (c : Console) : Nat × Nat := (c.rate, c.cyclesPerFrame)

theorem cyclesPerFrame_of_rates {c d : Console} (h : d.rates = c.rates) :
    d.cyclesPerFrame = c.cyclesPerFrame :=
  congrArg Prod.snd h

theorem settle_rates (c : Console) (turn : Turn) : (c.settle turn).rates = c.rates := by
  unfold settle
  split <;> rfl

theorem countFrame_rates (c : Console) : c.countFrame.rates = c.rates := by
  unfold countFrame
  split <;> rfl

theorem step_rates (c : Console) : c.step.2.rates = c.rates := by
  have hp : c.poll.2.rates = c.rates := rfl
  unfold step
  split
  · next h => rwa [h] at hp
  · next h => rwa [h] at hp
  · next polled h =>
      rw [h] at hp
      unfold execute
      cases polled.machine.step with
      | error fault => exact hp
      | ok turn =>
          dsimp only
          rw [countFrame_rates, settle_rates, hp]

theorem loop_rates (realtime : Bool) (c : Console) (executed n : Nat) :
    (loop realtime c executed n).2.2.rates = c.rates :=
  loop_preserves (P := fun d => d.rates = c.rates) (fun d hd => (step_rates d).trans hd)
    (fun _ hd => hd) rfl realtime executed n

theorem run_limit {c : Console} {rate : Float} (hr : Period.rate? c.rate = some rate) (n : Nat)
    (realtime : Bool) (patience : Nat) :
    c.run (some (n : Int)) realtime patience = some (conclude (loop realtime c 0 n)) := by
  simp only [run, hr, Int.toNat_natCast]

theorem loop_of_run {c d : Console} {n : Nat} {realtime : Bool} {patience : Nat}
    (h : c.run (some (n : Int)) realtime patience = some (.ok n, d)) :
    (∃ rate, Period.rate? c.rate = some rate) ∧
      ∃ b, loop realtime c 0 n = (.limit, n, b) ∧ d = b.silence := by
  cases hr : Period.rate? c.rate with
  | none =>
      rw [run_of_no_rate hr] at h
      cases h
  | some rate =>
      rw [run_limit hr] at h
      refine ⟨⟨rate, rfl⟩, ?_⟩
      -- A loop that is over before its limit has counted fewer than `n` instructions.
      cases hl : loop realtime c 0 n with
      | mk e rest =>
          obtain ⟨k, b⟩ := rest
          rw [hl] at h
          obtain ⟨-, hk, hd⟩ := conclude_eq_ok (Option.some.inj h)
          obtain rfl := loop_full hl (by omega)
          exact ⟨b, by rw [hk], hd⟩

theorem silence_eq (c : Console) : c.silence = { c.hushed with host := c.silence.host } := by
  simp only [silence, hushed, Beeper.stop_hushed]

/-- Consoles that differ in their sound alone are the same but for the log once both are silent. -/
theorem silence_of_hushed {c d : Console} (h : c.hushed = d.hushed) :
    d.silence = { c.silence with host := d.silence.host } ∧
      d.silence.host.hushed = c.silence.host.hushed := by
  constructor
  · rw [silence_eq d, silence_eq c, h]
  · have hs : d.silence.hushed = c.silence.hushed := by
      rw [hushed_silence, hushed_silence, h]
    exact congrArg Console.host hs

def Ending.answer : Ending → Nat → Except Fault Nat
  | .fault f, _ => .error f
  | .limit, executed => .ok executed
  | .quit, executed => .ok executed

theorem Ending.answer_add (e : Ending) (m n : Nat) :
    e.answer (m + n) = (e.answer n).map (m + ·) := by
  cases e <;> rfl

theorem conclude_eq (e : Ending) (k : Nat) (c : Console) :
    conclude (e, k, c) = (e.answer k, c.silence) := by
  cases e <;> rfl

theorem run_add {c d : Console} {m n : Nat} {realtime : Bool} {patience : Nat}
    (hm : c.run (some (m : Int)) realtime patience = some (.ok m, d)) :
    ∃ rest whole e f,
      d.run (some (n : Int)) realtime patience = some (rest, e) ∧
        c.run (some ((m + n : Nat) : Int)) realtime patience = some (whole, f) ∧
        whole = rest.map (m + ·) ∧ f = { e with host := f.host } ∧
        f.host.hushed = e.host.hushed := by
  obtain ⟨⟨rate, hr⟩, b, hl, rfl⟩ := loop_of_run hm
  have hb : b.silence.rate = c.rate := by
    have hrates := loop_rates realtime c 0 m
    rw [hl] at hrates
    exact congrArg Prod.fst hrates
  have hrest := run_limit (hb ▸ hr) n realtime patience
  have hwhole := run_limit hr (m + n) realtime patience
  -- The whole run goes on from `b` where the second run goes on from `b` in silence.
  have hcount := loop_add_left realtime b m 0 n
  rw [Nat.add_zero] at hcount
  rw [loop_add, hl, proceed, hcount] at hwhole
  obtain ⟨he, hk, hconsole⟩ := bisimulation_hushed.loop (hushed_silence b) realtime 0 n
  generalize loop realtime b.silence 0 n = second at hrest he hk hconsole
  generalize loop realtime b 0 n = remainder at hwhole he hk hconsole
  obtain ⟨e, k, x⟩ := second
  obtain ⟨e', k', y⟩ := remainder
  dsimp only at hwhole he hk hconsole
  subst he hk
  rw [conclude_eq] at hrest hwhole
  obtain ⟨hf, hhost⟩ := silence_of_hushed hconsole
  exact ⟨_, _, _, _, hrest, hwhole, e.answer_add m k, hf, hhost⟩

/-- A tone that sounds on, in a window that is closed in the fourth round. -/
def closing : Console where
  machine :=
    ((Machine.fresh 1 Source.silent).load (.bytes [0x60, 0x0A, 0xF0, 0x18, 0x12, 0x04])).machine
  display := .window { Window.create Window.defaultScale Window.defaultTitle with running := true }
  beeper := .tone false
  host := { Host.idle with batches := [[.down 49], [], [.other], [.quit, .up 49]] }
  rate := 850
  cyclesPerFrame := 1
  sinceFrame := 0
  quitRequested := false
  sleeps := 0

theorem exists_run {c : Console} {limit : Option Int} {realtime : Bool} {patience k : Nat}
    (h : (c.run limit realtime patience).map (·.1.toOption) = some (some k)) :
    ∃ d, c.run limit realtime patience = some (.ok k, d) := by
  obtain ⟨⟨answer, d⟩, hr, ha⟩ := Option.map_eq_some_iff.mp h
  cases answer with
  | error fault => cases ha
  | ok n =>
      cases ha
      exact ⟨d, hr⟩

theorem run_add_closing :
    ∃ d e f,
      closing.run (some 2) true 0 = some (.ok 2, d) ∧ d.run (some 3) true 0 = some (.ok 1, e) ∧
        closing.run (some 5) true 0 = some (.ok 3, f) ∧ f = { e with host := f.host } ∧
        f.host.hushed = e.host.hushed := by
  obtain ⟨d, hd⟩ : ∃ d, closing.run (some 2) true 0 = some (.ok 2, d) :=
    exists_run (by decide +kernel)
  obtain ⟨g, hg⟩ : ∃ g, closing.run (some 5) true 0 = some (.ok 3, g) :=
    exists_run (by decide +kernel)
  obtain ⟨rest, whole, e, f, he, hf, hwhole, hconsole, hhost⟩ := run_add (m := 2) (n := 3) hd
  obtain ⟨rfl, rfl⟩ := Prod.mk.inj (Option.some.inj (hf.symm.trans hg))
  have hrest : rest = .ok 1 := by
    cases rest with
    | error fault => cases hwhole
    | ok k =>
        have hk : 3 = 2 + k := Except.ok.inj hwhole
        congr
        omega
  rw [hrest] at he
  exact ⟨d, e, f, hd, he, hf, hconsole, hhost⟩

end Console

end ChipEight
