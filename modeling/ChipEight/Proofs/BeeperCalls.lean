import ChipEight.Beeper

/-!
A beeper with a tone beside a silent one. Whatever is called on both, they agree on whether they
play (`Beeper.playing_after`), and the calls that reach the host are starts and stops of the loop in
turn (`Beeper.Turned`).
-/

namespace ChipEight

namespace Beeper

inductive Use where
  | play
  | stop
  | close
  | ring (on : Bool)
  deriving DecidableEq

def Use.asks : Use → Bool
  | play => true
  | stop => false
  | close => false
  | ring on => on

def act (p : Beeper × Host) : Use → Beeper × Host
  | .play => p.1.play p.2
  | .stop => p.1.stop p.2
  | .close => p.1.close p.2
  | .ring on => p.1.ring on p.2

def after (p : Beeper × Host) (uses : List Use) : Beeper × Host := uses.foldl act p

theorem act_eq_ring (p : Beeper × Host) (u : Use) : act p u = p.1.ring u.asks p.2 := by
  cases u <;> rfl

theorem playing_act (p : Beeper × Host) (u : Use) : (act p u).1.playing = u.asks := by
  rw [act_eq_ring, playing_ring]

theorem playing_after {p q : Beeper × Host} (h : p.1.playing = q.1.playing) (uses : List Use) :
    (after p uses).1.playing = (after q uses).1.playing := by
  induction uses generalizing p q with
  | nil => exact h
  | cons u uses ih =>
      have hu : (act p u).1.playing = (act q u).1.playing := by rw [playing_act, playing_act]
      exact ih hu

theorem act_silent (s : Bool) (l : Host) (u : Use) : act (silent s, l) u = (silent u.asks, l) := by
  rw [act_eq_ring]
  cases u.asks <;> rfl

theorem after_silent (s : Bool) (l : Host) (uses : List Use) :
    (after (silent s, l) uses).2 = l := by
  induction uses generalizing s with
  | nil => rfl
  | cons u uses ih =>
      have hu : after (silent s, l) (u :: uses) = after (silent u.asks, l) uses :=
        congrArg (after · uses) (act_silent s l u)
      rw [hu, ih]

def call (on : Bool) : Call := if on then .play forever else .stop

theorem ring_tone (playing on : Bool) (h : Host) :
    (tone playing).ring on h =
      if on = playing then (tone playing, h) else (tone on, h.record (call on)) := by
  cases on <;> cases playing <;> rfl

/-- The first calls that turn the tone on and off in turn. -/
def turns (n : Nat) : List Call := (List.range n).map fun i => call (i % 2 = 0)

theorem turns_succ (n : Nat) : turns (n + 1) = turns n ++ [call (n % 2 = 0)] := by
  rw [turns, List.range_succ, List.map_append]
  rfl

theorem getElem_turns {n i : Nat} (hi : i < (turns n).length) :
    (turns n)[i] = if i % 2 = 0 then .play forever else .stop := by
  simp [turns, call]

theorem getLast?_turns (n : Nat) : (turns n).getLast? = some (.play forever) ↔ n % 2 = 1 := by
  cases n with
  | zero => simp [turns]
  | succ n =>
      rw [turns_succ, List.getLast?_concat, Option.some.injEq, call]
      split
      · next he =>
          have heven : n % 2 = 0 := of_decide_eq_true he
          exact iff_of_true rfl (by omega)
      · next ho =>
          have hodd : ¬ n % 2 = 0 := fun h => ho (decide_eq_true h)
          exact iff_of_false nofun (by omega)

/-- A beeper whose tone was turned `n` times since the given calls, and so is on if `n` is odd. -/
structure Turned (since : List Call) (n : Nat) (p : Beeper × Host) : Prop where
  beeper : p.1 = tone (n % 2 = 1)
  calls : p.2.calls = since ++ turns n

theorem Turned.act {since : List Call} {n : Nat} {p : Beeper × Host} (h : Turned since n p)
    (u : Use) : ∃ m, Turned since m (act p u) := by
  rw [act_eq_ring, h.beeper, ring_tone]
  by_cases hu : u.asks = decide (n % 2 = 1)
  · rw [if_pos hu]
    exact ⟨n, rfl, h.calls⟩
  · have hasks : u.asks = decide (n % 2 = 0) := by
      rw [Bool.eq_not.mpr hu, ← decide_not, decide_eq_decide]
      omega
    have hodd : decide (n % 2 = 0) = decide ((n + 1) % 2 = 1) := decide_eq_decide.mpr (by omega)
    rw [if_neg hu, hasks]
    refine ⟨n + 1, congrArg tone hodd, ?_⟩
    rw [Host.calls_record, h.calls, turns_succ, List.append_assoc]

theorem Turned.after {since : List Call} {n : Nat} {p : Beeper × Host} (h : Turned since n p)
    (uses : List Use) : ∃ m, Turned since m (after p uses) := by
  induction uses generalizing n p with
  | nil => exact ⟨n, h⟩
  | cons u uses ih =>
      obtain ⟨m, hm⟩ := h.act u
      exact ih hm

theorem tone_agrees_with_silent_in_turns {h k : Host} {b : Beeper}
    (hb : create h = (.ok b, k)) (l : Host) (uses : List Use) :
    let heard := after (b, k) uses
    let unheard := after (silent false, l) uses
    heard.1.playing = unheard.1.playing ∧ unheard.2 = l ∧
      ∃ calls, heard.2.calls = k.calls ++ calls ∧
        (∀ (i : Nat) (hi : i < calls.length),
          calls[i] = if i % 2 = 0 then .play forever else .stop) ∧
        (calls.getLast? = some (.play forever) ↔ heard.1.playing = true) := by
  intro heard unheard
  have hmade : Turned k.calls 0 (b, k) := ⟨eq_tone_of_create hb, (List.append_nil _).symm⟩
  have hoff := congrArg playing hmade.beeper
  have hflag : heard.1.playing = unheard.1.playing := playing_after hoff uses
  obtain ⟨n, hturned⟩ := hmade.after uses
  have hodd : heard.1.playing = decide (n % 2 = 1) := congrArg playing hturned.beeper
  refine ⟨hflag, after_silent false l uses, turns n, hturned.calls, fun _ => getElem_turns, ?_⟩
  rw [getLast?_turns, hodd, decide_eq_true_iff]

/-- The tone is asked for twice, stopped twice, turned off while it is off, and asked for again. -/
def repeated : List Use := [.ring true, .play, .stop, .close, .ring false, .play]

theorem tone_agrees_with_silent_in_turns_of_repeated :
    ∃ k calls, create Host.idle = (.ok (tone false), k) ∧
      (after (tone false, k) repeated).2.calls = k.calls ++ calls ∧
      calls = [.play forever, .stop, .play forever] ∧
      (after (tone false, k) repeated).1.playing = true ∧
      (after (silent false, Host.bare) repeated).1.playing = true := by
  let k := (create Host.idle).2
  have hb : create Host.idle = (.ok (tone false), k) := by rfl
  obtain ⟨hflag, -, calls, hcalls, -, hlast⟩ :=
    tone_agrees_with_silent_in_turns hb Host.bare repeated
  have hsilent : (after (silent false, Host.bare) repeated).1.playing = true := rfl
  have hmade : (after (tone false, k) repeated).2.calls =
      k.calls ++ [.play forever, .stop, .play forever] := by
    simp [after, repeated, act, ring, play, stop, close]
  have hthree : calls = [.play forever, .stop, .play forever] :=
    List.append_cancel_left (hcalls.symm.trans hmade)
  refine ⟨k, calls, hb, hcalls, hthree, hlast.mp ?_, hsilent⟩
  rw [hthree]
  rfl

end Beeper

end ChipEight
