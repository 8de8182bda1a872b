import ChipEight.Proofs.RunLength

/-!
What the log of a host says. `HostView` reads off the calls whether a window is open and whether a
tone sounds, and `Host.Since` says so of the calls made between two hosts. A console keeps both in
step with its own display and beeper (`Console.Tracked`), so once it is closed neither is left.
-/

namespace ChipEight

structure HostView where
  /-- What awaits the coming attempts to open a window. -/
  errors : List (Option String)
  windowOpen : Bool
  sounding : Bool

namespace HostView

def read (v : HostView) : Call → HostView
  | .setMode _ _ =>
      match v.errors with
      | some _ :: errors => { v with errors }
      | _ => { v with errors := v.errors.tail, windowOpen := true }
  | .quitVideo => { v with windowOpen := false }
  | .play _ => { v with sounding := true }
  | .stop => { v with sounding := false }
  | _ => v

def readAll (v : HostView) (calls : List Call) : HostView := calls.foldl read v

@[simp] theorem readAll_concat (v : HostView) (calls : List Call) (c : Call) :
    v.readAll (calls ++ [c]) = (v.readAll calls).read c := by
  simp [readAll]

end HostView

namespace Host

/-- A host with no window open and no tone sounding. -/
def view (h : Host) : HostView := ⟨h.videoErrors, false, false⟩

/-- The calls from one host to a later one leave a window open, or a tone sounding, or not. -/
def Since (h : Host) (windowOpen sounding : Bool) (k : Host) : Prop :=
  ∃ calls, k.calls = h.calls ++ calls ∧ h.view.readAll calls = ⟨k.videoErrors, windowOpen, sounding⟩

section Since

variable {h k l : Host} {w w' s s' : Bool}

theorem since_refl (h : Host) : h.Since false false h := ⟨[], (List.append_nil _).symm, rfl⟩

theorem Since.call (hs : h.Since w s k) {c : Call} (hl : l.calls = k.calls ++ [c])
    (hc : HostView.read ⟨k.videoErrors, w, s⟩ c = ⟨l.videoErrors, w', s'⟩) : h.Since w' s' l := by
  obtain ⟨calls, hk, hv⟩ := hs
  refine ⟨calls ++ [c], ?_, ?_⟩
  · rw [hl, hk, List.append_assoc]
  · rw [HostView.readAll_concat, hv, hc]

theorem Since.record (hs : h.Since w s k) {c : Call}
    (hc : HostView.read ⟨k.videoErrors, w, s⟩ c = ⟨k.videoErrors, w', s'⟩) :
    h.Since w' s' (k.record c) :=
  hs.call (calls_record k c) hc

theorem Since.events (hs : h.Since w s k) : h.Since w s k.events.2 := by
  unfold Host.events
  split <;> exact hs

theorem Since.setMode_ok (hs : h.Since w s k) {width height : Nat}
    (ho : k.setMode width height = (.ok (), l)) :
    (∀ message, k.videoErrors.head? ≠ some (some message)) ∧ h.Since true s l := by
  unfold setMode at ho
  split at ho
  · cases ho
  · next hn =>
      cases ho
      constructor
      · intro message hm
        obtain ⟨rest, hr⟩ := List.head?_eq_some_iff.mp hm
        exact hn message rest hr
      · refine hs.call (calls_record _ _) ?_
        simp only [HostView.read]
        rfl

theorem Since.setMode_error (hs : h.Since w s k) {width height : Nat} {message : String}
    (ho : k.setMode width height = (.error message, l)) :
    k.videoErrors.head? = some (some message) ∧ h.Since w s l := by
  unfold setMode at ho
  split at ho
  · next he =>
      cases ho
      constructor
      · rw [he, List.head?_cons]
      · refine hs.call (calls_record _ _) ?_
        simp only [HostView.read, he]
        rfl
  · cases ho

end Since

end Host

namespace Beeper

/-- Whether the host sounds for the beeper, which it never does for a silent one. -/
def sounding : Beeper → Bool
  | tone playing => playing
  | silent _ => false

theorem ring_since {h k : Host} {w : Bool} {b : Beeper} (hs : h.Since w b.sounding k) (on : Bool) :
    h.Since w (b.ring on k).1.sounding (b.ring on k).2 := by
  cases b with
  | silent playing => cases on <;> exact hs
  | tone playing =>
      cases on <;> cases playing
      · exact hs
      · exact hs.record rfl
      · exact hs.record rfl
      · exact hs

theorem sounding_stop (b : Beeper) (k : Host) : (b.stop k).1.sounding = false := by
  cases b with
  | silent playing => rfl
  | tone playing => cases playing <;> rfl

theorem stop_since {h k : Host} {w : Bool} {b : Beeper} (hs : h.Since w b.sounding k) :
    h.Since w false (b.stop k).2 := by
  have hr := ring_since hs false
  have hn : (b.ring false k).1.sounding = false := sounding_stop b k
  rwa [hn] at hr

end Beeper

namespace Window

variable {h k : Host} {o s : Bool}

theorem poll_since (w : Window) (hs : h.Since o s k) (p : Keypad) :
    h.Since o s (w.poll k p).2.1 := by
  unfold poll
  split
  · have he := hs.events
    split
    · next hk => rwa [hk] at he
    · next hk => rwa [hk] at he
  · exact hs

theorem render_since (w : Window) (hs : h.Since o s k) (screen : Screen) :
    h.Since o s (w.render screen k) := by
  unfold render
  split
  · exact (((hs.record rfl).record rfl).record rfl).record rfl
  · exact hs

end Window

namespace Display

def running : Display → Bool
  | window w => w.running
  | recorder _ => false

theorem poll_since {h k : Host} {s : Bool} {d : Display} (hs : h.Since d.running s k) (p : Keypad) :
    h.Since (d.poll k p).display.running s (d.poll k p).host := by
  cases d with
  | recorder r => exact hs
  | window w => exact w.poll_since hs p

theorem render_since {h k : Host} {s : Bool} {d : Display} (hs : h.Since d.running s k)
    (screen : Screen) : h.Since (d.render screen k).1.running s (d.render screen k).2 := by
  cases d with
  | recorder r => exact hs
  | window w => exact w.render_since hs screen

theorem stop_since {h k : Host} {s : Bool} {d : Display} (hs : h.Since d.running s k) :
    h.Since false s (d.stop k).2 := by
  cases d with
  | recorder r => exact hs
  | window w =>
      change h.Since w.running s k at hs
      change h.Since false s (w.stop k).2
      unfold Window.stop
      split
      · exact hs.record rfl
      · next hr =>
          rwa [Bool.eq_false_iff.mpr hr] at hs

end Display

namespace Console

/-- The log agrees with the console on whether a window is open and a tone sounds. -/
def Tracked (h : Host) (c : Console) : Prop := h.Since c.display.running c.beeper.sounding c.host

section Tracked

variable {h : Host} {c : Console}

theorem settle_tracked (hc : Tracked h c) (turn : Turn) : Tracked h (c.settle turn) := by
  unfold settle
  split
  · exact hc
  · exact Beeper.ring_since hc _

theorem countFrame_tracked (hc : Tracked h c) : Tracked h c.countFrame := by
  unfold countFrame
  split
  · exact Display.render_since hc c.machine.screen
  · exact hc

theorem step_tracked (hc : Tracked h c) : Tracked h c.step.2 := by
  have hp : Tracked h c.poll.2 := Display.poll_since hc c.machine.keypad
  unfold step
  split
  · next he => rwa [he] at hp
  · next he => rwa [he] at hp
  · next polled he =>
      rw [he] at hp
      unfold execute
      cases polled.machine.step with
      | error fault => exact hp
      | ok turn => exact countFrame_tracked (settle_tracked hp turn)

theorem silence_tracked (hc : Tracked h c) : Tracked h c.silence := Beeper.ring_since hc false

theorem run_tracked (hc : Tracked h c) {limit : Option Int} {realtime : Bool} {patience : Nat}
    {ended : Except Fault Nat × Console} (he : c.run limit realtime patience = some ended) :
    Tracked h ended.2 :=
  run_preserves (P := Tracked h) (fun _ => step_tracked) (fun _ hd => hd)
    (fun _ => silence_tracked) hc he

theorem close_since (hc : Tracked h c) : h.Since false false c.close.host :=
  Display.stop_since (Beeper.stop_since hc)

end Tracked

end Console

end ChipEight
