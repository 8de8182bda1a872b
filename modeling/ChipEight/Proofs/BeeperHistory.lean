import ChipEight.Proofs.RunLength

/-!
When the beeper plays. It hears the edges of the tone and is stopped at the end of every run, while
the tone goes on in the machine. So at every moment of a history it plays exactly if the tone is on
and no run has ended since the tone came on (`Console.Follows`).
-/

namespace ChipEight

def toneEdge (before after : Bool) : Option Bool := if before = after then none else some after

namespace Machine

theorem tick_toneEdge (m : Machine) : m.tick.edge = toneEdge m.tone m.tick.settled.tone := by
  rw [tick_edge, tick_settled]
  rfl

theorem count_toneEdge (m : Machine) : m.count.edge = toneEdge m.tone m.count.settled.tone := by
  simp only [count]
  split
  · exact tick_toneEdge _
  · exact (if_pos rfl).symm

theorem step_toneEdge {m : Machine} {turn : Turn} (h : m.step = .ok turn) :
    turn.edge = toneEdge m.tone turn.settled.tone := by
  unfold step at h
  split at h
  · next i _ =>
      cases h
      rw [count_toneEdge, execute_tone]
  · cases h

end Machine

namespace Console

/-- The tone is as it was and the beeper untouched, or the tone has changed and the beeper with
it. -/
def Steady (c d : Console) : Prop :=
  (d.machine.tone = c.machine.tone ∧ d.beeper.playing = c.beeper.playing) ∨
    (d.machine.tone ≠ c.machine.tone ∧ d.beeper.playing = d.machine.tone)

theorem Steady.refl (c : Console) : Steady c c := .inl ⟨rfl, rfl⟩

theorem settle_steady {c : Console} {turn : Turn}
    (h : turn.edge = toneEdge c.machine.tone turn.settled.tone) : Steady c (c.settle turn) := by
  unfold Steady
  rw [settle_machine]
  by_cases ht : c.machine.tone = turn.settled.tone
  · rw [toneEdge, if_pos ht] at h
    exact .inl ⟨ht.symm, by simp only [settle, h]⟩
  · rw [toneEdge, if_neg ht] at h
    refine .inr ⟨Ne.symm ht, ?_⟩
    simp only [settle, h]
    exact Beeper.playing_ring c.beeper turn.settled.tone c.host

theorem countFrame_beeper (c : Console) : c.countFrame.beeper = c.beeper := by
  unfold countFrame
  split <;> rfl

theorem step_steady (c : Console) : Steady c c.step.2 := by
  unfold step
  have hm : c.poll.2.machine.tone = c.machine.tone := rfl
  have hb : c.poll.2.beeper = c.beeper := rfl
  split
  · next h =>
      rw [h] at hm hb
      exact .inl ⟨hm, congrArg Beeper.playing hb⟩
  · next h =>
      rw [h] at hm hb
      exact .inl ⟨hm, congrArg Beeper.playing hb⟩
  · next polled h =>
      rw [h] at hm hb
      unfold execute
      cases hs : polled.machine.step with
      | error fault => exact .inl ⟨hm, congrArg Beeper.playing hb⟩
      | ok turn =>
          have ht := settle_steady (Machine.step_toneEdge hs)
          unfold Steady at ht ⊢
          simp only [countFrame_machine, countFrame_beeper]
          rwa [← hm, ← hb]

theorem loop_steady (realtime : Bool) (c : Console) (executed n : Nat) :
    Steady (loop realtime c executed n).2.2 (loop realtime c executed (n + 1)).2.2 :=
  loop_round Steady.refl step_steady (fun _ _ h => h) realtime c executed n

/-- What is called on a console. A run without a limit is followed as far as `patience` goes. -/
inductive Use where
  | step
  | run (limit : Option Int) (realtime : Bool) (patience : Nat)

def use (c : Console) : Use → Option Console
  | .step => some c.step.2
  | .run limit realtime patience => (c.run limit realtime patience).map (·.2)

/-- A console right after a step or a round of a run, or right after a run has stopped the
beeper. -/
structure Moment where
  console : Console
  runEnds : Bool

def moments (c : Console) : Use → List Moment
  | .step => [⟨c.step.2, false⟩]
  | .run limit realtime patience =>
      match Period.rate? c.rate with
      | none => []
      | some _ =>
          (List.range (rounds limit patience)).map
              (fun n => ⟨(loop realtime c 0 (n + 1)).2.2, false⟩) ++
            (c.run limit realtime patience).toList.map fun ended => ⟨ended.2, true⟩

/-- The moments of a list of uses, up to a run that does not end. -/
def history (c : Console) : List Use → List Moment
  | [] => []
  | u :: us => c.moments u ++ (c.use u).elim [] fun d => d.history us

/-- The moments since the tone came on, of those that a history has seen, the latest first. -/
def sinceToneOn (seen : List Moment) : List Moment := seen.takeWhile (·.console.machine.tone)

/-- No run has ended since the tone came on. -/
def Unbroken (seen : List Moment) : Prop := ∀ m ∈ sinceToneOn seen, m.runEnds = false

theorem unbroken_of_tone_off {m : Moment} (h : m.console.machine.tone = false)
    (seen : List Moment) : Unbroken (m :: seen) := by
  simp [Unbroken, sinceToneOn, h]

theorem unbroken_cons {m : Moment} (h : m.console.machine.tone = true) (seen : List Moment) :
    Unbroken (m :: seen) ↔ m.runEnds = false ∧ Unbroken seen := by
  simp [Unbroken, sinceToneOn, h]

/-- The beeper of a console with the moments that led to it, the latest first. -/
structure Follows (seen : List Moment) (c : Console) : Prop where
  playing_iff : c.beeper.playing = true ↔ c.machine.tone = true ∧ Unbroken seen
  rested : c.machine.tone = false → Unbroken seen

theorem Follows.round {seen : List Moment} {c d : Console} (h : Follows seen c) (hs : Steady c d) :
    Follows (⟨d, false⟩ :: seen) d := by
  cases hd : d.machine.tone with
  | false =>
      refine ⟨?_, fun _ => unbroken_of_tone_off hd seen⟩
      have hoff : d.beeper.playing = false := by
        rcases hs with ⟨ht, hp⟩ | ⟨-, hp⟩
        · have hc : c.machine.tone = false := ht.symm.trans hd
          have hn : ¬ c.beeper.playing = true := by simp [h.playing_iff, hc]
          rw [hp]
          simpa using hn
        · rw [hp, hd]
      simp [hoff, hd]
  | true =>
      refine ⟨?_, by simp [hd]⟩
      rw [unbroken_cons hd, hd]
      rcases hs with ⟨ht, hp⟩ | ⟨ht, hp⟩
      · have hc : c.machine.tone = true := ht.symm.trans hd
        rw [hp, h.playing_iff, hc]
        simp
      · have hc : c.machine.tone = false := by
          rw [hd] at ht
          simpa using ht.symm
        simp [hp, hd, h.rested hc]

theorem follows_silence (seen : List Moment) (c : Console) :
    Follows (⟨c.silence, true⟩ :: seen) c.silence := by
  have hp : c.silence.beeper.playing = false := Beeper.playing_stop c.beeper c.host
  cases ht : c.machine.tone with
  | false =>
      have ht' : c.silence.machine.tone = false := ht
      exact ⟨by simp [hp, ht'], fun _ => unbroken_of_tone_off ht' seen⟩
  | true =>
      have ht' : c.silence.machine.tone = true := ht
      have hb : ¬ Unbroken (⟨c.silence, true⟩ :: seen) := by simp [unbroken_cons, ht']
      exact ⟨by simp [hp, hb], by simp [ht']⟩

/-- The beeper follows the tone at each of some moments, in the order in which they come. -/
def Followed (seen : List Moment) : List Moment → Prop
  | [] => True
  | m :: ms => Follows (m :: seen) m.console ∧ Followed (m :: seen) ms

theorem followed_append (seen ms ns : List Moment) :
    Followed seen (ms ++ ns) ↔ Followed seen ms ∧ Followed (ms.reverse ++ seen) ns := by
  induction ms generalizing seen with
  | nil => simp [Followed]
  | cons m ms ih => simp [Followed, ih, and_assoc]

theorem Followed.get {seen ms : List Moment} (h : Followed seen ms) {k : Nat} (hk : k < ms.length) :
    Follows ((ms.take (k + 1)).reverse ++ seen) ms[k].console := by
  induction ms generalizing seen k with
  | nil => simp at hk
  | cons m ms ih =>
      cases k with
      | zero => simpa using h.1
      | succ k =>
          have := ih h.2 (Nat.lt_of_succ_lt_succ hk)
          simpa using this

theorem followed_rounds {seen : List Moment} {c : Console} (h : Follows seen c) (realtime : Bool)
    (n : Nat) :
    let ms := (List.range n).map fun k => Moment.mk (loop realtime c 0 (k + 1)).2.2 false
    Followed seen ms ∧ Follows (ms.reverse ++ seen) (loop realtime c 0 n).2.2 := by
  induction n with
  | zero => exact ⟨trivial, h⟩
  | succ n ih =>
      obtain ⟨hms, hn⟩ := ih
      have hr := hn.round (loop_steady realtime c 0 n)
      simp only [List.range_succ, List.map_append, List.map_cons, List.map_nil, followed_append,
        List.reverse_append, List.reverse_cons, List.reverse_nil, List.nil_append,
        List.singleton_append]
      exact ⟨⟨hms, hr, trivial⟩, hr⟩

theorem followed_moments {seen : List Moment} {c : Console} (h : Follows seen c) (u : Use) :
    Followed seen (c.moments u) ∧
      ∀ d, c.use u = some d → Follows ((c.moments u).reverse ++ seen) d := by
  cases u with
  | step =>
      have hs := h.round (step_steady c)
      refine ⟨⟨hs, trivial⟩, ?_⟩
      intro d hd
      cases hd
      exact hs
  | run limit realtime patience =>
      cases hr : Period.rate? c.rate with
      | none =>
          simp only [moments, hr, use, run_of_no_rate hr]
          refine ⟨trivial, ?_⟩
          intro d hd
          cases hd
          exact h
      | some rate =>
          have hms := (followed_rounds h realtime (rounds limit patience)).1
          simp only [moments, hr, use, followed_append]
          cases hc : c.run limit realtime patience with
          | none => exact ⟨⟨hms, trivial⟩, by simp⟩
          | some ended =>
              have he : ∀ past, Follows (⟨ended.2, true⟩ :: past) ended.2 := by
                intro past
                rw [run_console hr hc]
                exact follows_silence past _
              refine ⟨⟨hms, he _, trivial⟩, ?_⟩
              intro d hd
              cases hd
              rw [List.reverse_append, List.append_assoc]
              exact he _

theorem followed_history {seen : List Moment} {c : Console} (h : Follows seen c) (us : List Use) :
    Followed seen (c.history us) := by
  induction us generalizing seen c with
  | nil => trivial
  | cons u us ih =>
      obtain ⟨hm, hd⟩ := followed_moments h u
      rw [history, followed_append]
      refine ⟨hm, ?_⟩
      cases hu : c.use u with
      | none => trivial
      | some d => exact ih (hd d hu)

theorem beeper_follows_unbroken_tone {cyclesPerTick : Nat} {source : Source} {image : Image}
    {display : Display} {beeper : Beeper} {host : Host} {rate frameRate : Int} {c : Console}
    (hb : beeper.playing = false)
    (hc : create ((Machine.fresh cyclesPerTick source).load image).machine display beeper host rate
      frameRate = .ok c)
    (uses : List Use) {k : Nat} (hk : k < (c.history uses).length) :
    let now := (c.history uses)[k].console
    now.beeper.playing = true ↔
      now.machine.tone = true ∧ Unbroken ((c.history uses).take (k + 1)).reverse := by
  intro now
  have hf : Follows [] c := by
    obtain ⟨memory, hm⟩ := Machine.load_machine (Machine.fresh cyclesPerTick source) image
    rw [hm] at hc
    unfold create at hc
    split at hc
    · cases hc
    · cases hc
      have hu : Unbroken [] := by simp [Unbroken, sinceToneOn]
      exact ⟨by simp [hb, Machine.fresh], fun _ => hu⟩
  have hn := ((followed_history hf uses).get hk).playing_iff
  rwa [List.append_nil] at hn

/-- A tone of ten ticks, one to an instruction, and a jump to itself. -/
def tenTicks : Console where
  machine :=
    ((Machine.fresh 1 Source.silent).load (.bytes [0x60, 0x0A, 0xF0, 0x18, 0x12, 0x04])).machine
  display := .recorder (Recorder.empty (some Recorder.defaultKeep) none)
  beeper := .silent false
  host := Host.idle
  rate := 850
  cyclesPerFrame := 14
  sinceFrame := 0
  quitRequested := false
  sleeps := 0

theorem create_tenTicks :
    create ((Machine.fresh 1 Source.silent).load
          (.bytes [0x60, 0x0A, 0xF0, 0x18, 0x12, 0x04])).machine
        (.recorder (Recorder.empty (some Recorder.defaultKeep) none)) (.silent false) Host.idle 850
        60 = .ok tenTicks := rfl

def runThenStep : List Use := [.run (some 2) false 0, .step]

theorem beeper_follows_unbroken_tone_of_tenTicks :
    ∃ h : 3 < (tenTicks.history runThenStep).length,
      (tenTicks.history runThenStep)[3].console.machine.tone = true ∧
        (tenTicks.history runThenStep)[3].console.beeper.playing = false ∧
        ¬ Unbroken ((tenTicks.history runThenStep).take 4).reverse := by
  have h : 3 < (tenTicks.history runThenStep).length := by decide +kernel
  have hb : (Beeper.silent false).playing = false := rfl
  have hf := beeper_follows_unbroken_tone hb create_tenTicks runThenStep h
  have hm : (tenTicks.history runThenStep)[3]?.map
      (fun m => (m.console.machine.tone, m.console.beeper.playing)) = some (true, false) := by
    decide +kernel
  rw [List.getElem?_eq_getElem h, Option.map_some, Option.some.injEq, Prod.mk.injEq] at hm
  obtain ⟨ht, hp⟩ := hm
  refine ⟨h, ht, hp, ?_⟩
  intro hu
  have hn := hf.mpr ⟨ht, hu⟩
  exact Bool.false_ne_true (hp.symm.trans hn)

theorem beeper_silent_in_tone_after_run :
    (do
      let (_, d) ← tenTicks.run (some 2) false 0
      let e := d.step.2
      return (e.machine.cycles, e.machine.tone, e.beeper.playing)) = some (3, true, false) := by
  decide +kernel

end Console

end ChipEight
