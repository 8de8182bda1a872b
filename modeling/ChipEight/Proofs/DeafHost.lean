import ChipEight.Proofs.Muffling

/-!
A host without sound. Opening a window comes to the same on a host and on the deaf host, making a
beeper or ringing one leaves the deaf host as it is, and so a console may be deafened
(`Muffling.deafen`).
-/

namespace ChipEight

namespace Host

/-- The host without its mixer and the room for samples, and without the calls for a beeper in its
log. -/
def deaf (h : Host) : Host :=
  { h with
    mixer := none
    channels := 0
    mixerError := none
    memory := 0
    log := h.log.filter fun call => !call.isAudio }

theorem deaf_deaf (h : Host) : h.deaf.deaf = h.deaf := by
  simp only [deaf, List.filter_filter, Bool.and_self]

theorem record_deaf (h : Host) (call : Call) (hc : call.isAudio = false) :
    h.deaf.record call = (h.record call).deaf := by
  simp [deaf, record, hc]

theorem deaf_record (h : Host) {call : Call} (hc : call.isAudio = true) :
    (h.record call).deaf = h.deaf := by
  simp [deaf, record, hc]

theorem calls_of_deaf {h k : Host} (hd : h.deaf = k.deaf) :
    (h.calls.filter fun call => !call.isAudio) = k.calls.filter fun call => !call.isAudio := by
  have hl : h.deaf.log.reverse = k.deaf.log.reverse := by rw [hd]
  simpa only [deaf, calls, ← List.filter_reverse] using hl

theorem events_deaf (h : Host) : h.deaf.events = (h.events.1, h.events.2.deaf) := by
  obtain ⟨batches, videoErrors, mixer, channels, mixerError, missing, log, memory⟩ := h
  cases batches <;> rfl

theorem setMode_deaf (h : Host) (width height : Nat) :
    h.deaf.setMode width height =
      ((h.setMode width height).1, (h.setMode width height).2.deaf) := by
  have hv : h.deaf.videoErrors = h.videoErrors := rfl
  have hr := record_deaf { h with videoErrors := h.videoErrors.tail } (.setMode width height) rfl
  simp only [setMode, hv]
  split
  · exact congrArg (Prod.mk _) hr
  · exact congrArg (Prod.mk _) hr

theorem openMixer_deaf (h : Host) : h.openMixer.2.deaf = h.deaf := by
  unfold openMixer
  split
  · rfl
  · dsimp only
    split
    · exact h.deaf_record rfl
    · exact h.deaf_record rfl

end Host

namespace Window

theorem start_deaf (w : Window) (h : Host) :
    w.start h.deaf = ((w.start h).1, (w.start h).2.1, (w.start h).2.2.deaf) := by
  have hm : h.deaf.missing = h.missing := rfl
  simp only [start, hm]
  split
  · rfl
  · rw [Host.record_deaf _ _ rfl, Host.record_deaf _ _ rfl, Host.setMode_deaf]
    obtain ⟨answer, k⟩ := ((h.record .init).record (.caption w.title)).setMode w.width w.height
    cases answer with
    | error message =>
        dsimp only
        rw [Host.record_deaf _ _ rfl]
    | ok u =>
        dsimp only
        rw [Host.record_deaf _ _ rfl]

end Window

namespace Beeper

theorem create_deaf (h : Host) : (create h).2.deaf = h.deaf := by
  have hm := h.openMixer_deaf
  unfold create
  split
  · rfl
  · split
    · next hk => rwa [hk] at hm
    · next hk =>
        rw [hk] at hm
        split
        · exact hm
        · exact (Host.deaf_record _ rfl).trans hm

theorem ring_deaf (b : Beeper) (on : Bool) (h : Host) : (b.ring on h).2.deaf = h.deaf := by
  cases b with
  | silent playing => cases on <;> rfl
  | tone playing =>
      cases on <;> cases playing
      · rfl
      · exact h.deaf_record rfl
      · exact h.deaf_record rfl
      · rfl

end Beeper

namespace Muffling

/-- No sound at all: every beeper is a silent one, and no host has a mixer. -/
def deafen : Muffling where
  beeper _ := .silent false
  host := Host.deaf
  beeper_beeper _ := rfl
  host_host := Host.deaf_deaf
  ring b on h := ⟨rfl, b.ring_deaf on h⟩
  record := Host.record_deaf
  events := Host.events_deaf

end Muffling

end ChipEight
