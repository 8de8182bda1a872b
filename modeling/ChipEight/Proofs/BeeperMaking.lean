import ChipEight.Beeper
import ChipEight.Window

/-!
When a beeper can be made. It takes a mixer that works and room for a table of samples with 200
bytes to a channel (`Wave.square_tone`), and nothing else of the host has a part in it.
-/

namespace ChipEight

theorem Table.allocate_of_room {memory itemBytes bytes : Nat} {shape : List Nat}
    (hbytes : shape.foldl (fun bytes axis => bytes * max 1 axis) itemBytes = bytes)
    (hword : FitsWord bytes) (hroom : bytes ≤ memory) :
    allocate memory itemBytes shape = .ok () := by
  simp only [allocate, hbytes]
  rw [if_neg (not_not_intro hword), if_neg]
  rintro ⟨-, hlarge⟩
  omega

namespace Wave

-- The steps are written with `pure` for `pure_bind`: to unfold a bind in front of a check against
-- the ends of a word is more than the kernel can do.
theorem square_tone {channels : Int} {memory : Nat} (hone : 1 ≤ channels)
    (hlast : channels < 2147483648) (hroom : 200 * channels ≤ memory) :
    ∃ wave, square channels tonePeriod toneAmplitude memory = .ok wave := by
  have hp : FitsWord (tonePeriod : Nat) := by decide
  have hl : Table.dimension (tonePeriod : Nat) = pure tonePeriod := rfl
  have hm : Table.allocate memory sampleBytes [tonePeriod] = pure () :=
    Table.allocate_of_room (show _ = 200 from rfl) (by decide) (show 200 ≤ memory by omega)
  have hh : sample toneAmplitude = pure 2048 := rfl
  have hlow : sample (-toneAmplitude) = pure (-2048) := rfl
  have hf : FitsWord channels := ⟨by omega, by omega⟩
  have hc : Table.dimension channels = pure channels.toNat := if_neg (by omega)
  have hbytes : [tonePeriod, channels.toNat].foldl (fun bytes axis => bytes * max 1 axis)
      sampleBytes = 200 * channels.toNat := by
    have hmax : max 1 channels.toNat = channels.toNat := Nat.max_eq_right (by omega)
    rw [List.foldl_cons, List.foldl_cons, List.foldl_nil, hmax]
    rfl
  have hall : Table.allocate memory sampleBytes [tonePeriod, channels.toNat] = pure () :=
    Table.allocate_of_room hbytes ⟨by omega, by omega⟩ (by omega)
  unfold square
  simp only [hp, hl, hm, hh, hlow, hf, hc, hall, pure_bind, not_true_eq_false, if_false]
  exact ⟨_, rfl⟩

end Wave

namespace Host

/-- A mixer that works: it is open already, or opens with these channels. They are counted in a
signed number of 32 bits. -/
structure MixerWorks (h : Host) (channels : Int) : Prop where
  opens : h.mixer = some channels ∨ h.mixer = none ∧ h.mixerError = none ∧ h.channels = channels
  pos : 1 ≤ channels
  counted : channels < 2147483648

/-- The samples of a tone on these channels find their place in memory. -/
def HasRoomForTone (h : Host) (channels : Int) : Prop := 200 * channels ≤ h.memory

instance (h : Host) (channels : Int) : Decidable (h.HasRoomForTone channels) :=
  inferInstanceAs (Decidable (_ ≤ _))

def MixerFails (h : Host) (message : String) : Prop :=
  h.mixer = none ∧ h.mixerError = some message

theorem openMixer_of_works {h : Host} {channels : Int} (hw : h.MixerWorks channels) :
    h.openMixer.1 = .ok channels := by
  unfold openMixer
  rcases hw.opens with hm | ⟨hm, he, hc⟩
  · rw [hm]
  · rw [hm, he, hc]

theorem openMixer_of_fails {h : Host} {message : String} (hf : h.MixerFails message) :
    h.openMixer.1 = .error (.mixer message) := by
  unfold openMixer
  rw [hf.1, hf.2]

theorem openMixer_memory (h : Host) : h.openMixer.2.memory = h.memory := by
  unfold openMixer
  split
  · rfl
  · dsimp only
    split
    · rfl
    · rfl

/-- All that the making of a beeper goes by. -/
def equipment (h : Host) : Bool × Option Int × Int × Option String × Nat :=
  (h.missing, h.mixer, h.channels, h.mixerError, h.memory)

theorem equipment_setMode (h : Host) (width height : Nat) :
    (h.setMode width height).2.equipment = h.equipment := by
  unfold setMode
  split <;> rfl

end Host

namespace Window

theorem equipment_start (w : Window) (h : Host) :
    (w.start h).2.2.equipment = h.equipment := by
  have hs := ((h.record .init).record (.caption w.title)).equipment_setMode w.width w.height
  unfold start
  split
  · rfl
  · split
    · next hk => rwa [hk] at hs
    · next hk => rwa [hk] at hs

end Window

namespace Beeper

theorem create_present {h : Host} (hm : h.missing = false) :
    (create h).1 =
      h.openMixer.1.bind fun channels =>
        (Wave.square channels Wave.tonePeriod Wave.toneAmplitude h.memory).map
          fun _ => tone false := by
  have hmemory := h.openMixer_memory
  unfold create
  rw [hm, if_neg Bool.false_ne_true]
  generalize h.openMixer = opened at hmemory ⊢
  obtain ⟨answer, k⟩ := opened
  cases answer with
  | error fault => rfl
  | ok channels =>
      dsimp only at hmemory ⊢
      rw [hmemory, Except.bind]
      cases Wave.square channels Wave.tonePeriod Wave.toneAmplitude h.memory with
      | error fault => rfl
      | ok wave => rfl

end Beeper

end ChipEight
