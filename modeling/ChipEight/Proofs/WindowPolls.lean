import ChipEight.Proofs.FrontEnds
import ChipEight.Proofs.InjectedKeys

/-!
What a window makes of its host's events. Each poll types the events of one batch that stand before
the first that closes the window, where an event types a key if its code is that of a key of the
layout (`Event.key?_eq_some_iff`). So polls set the keys of these beginnings one after another
(`Window.polls_typed`).
-/

namespace ChipEight

namespace Keymap

/-- The code of a key on the host: the character in the key's name. -/
def code (name : String) : Int := (name.toList.getLast?.getD '?').toNat

theorem mem_standard_iff (entry : Int × Nibble) :
    entry ∈ standard ↔ ∃ name, (name, entry.2) ∈ layout ∧ code name = entry.1 := by
  simp only [standard, List.mem_map, List.mem_reverse, Prod.exists, Prod.ext_iff, code]
  constructor
  · rintro ⟨name, key, hmem, hcode, rfl⟩
    exact ⟨name, hmem, hcode⟩
  · rintro ⟨name, hmem, hcode⟩
    exact ⟨name, entry.2, hmem, hcode, rfl⟩

theorem key?_standard_iff (n : Int) (key : Nibble) :
    standard.key? n = some key ↔ ∃ name, (name, key) ∈ layout ∧ code name = n := by
  rw [← mem_standard_iff (n, key)]
  constructor
  · intro h
    obtain ⟨before, behind, hsplit, -⟩ := List.lookup_eq_some_iff.mp h
    rw [hsplit]
    exact List.mem_append_cons_self
  · have hall : ∀ entry ∈ standard, standard.key? entry.1 = some entry.2 := by decide +kernel
    exact hall (n, key)

theorem key?_escape : standard.key? Window.escape = none := by decide +kernel

end Keymap

namespace Event

/-- The key events that a window makes of a batch, up to the first event that closes it. -/
def typed (batch : List Event) : List (Int × Bool) :=
  (batch.takeWhile stays).filterMap key?

theorem key?_eq_some_iff (e : Event) (event : Int × Bool) :
    e.key? = some event ↔
      ∃ name key, (name, key) ∈ Keymap.layout ∧
        (e = .down (Keymap.code name) ∧ event = ((key.toNat : Int), true) ∨
          e = .up (Keymap.code name) ∧ event = ((key.toNat : Int), false)) := by
  cases e with
  | down n =>
      simp only [key?, Option.map_eq_some_iff, Keymap.key?_standard_iff]
      constructor
      · rintro ⟨key, ⟨name, hmem, rfl⟩, rfl⟩
        exact ⟨name, key, hmem, .inl ⟨rfl, rfl⟩⟩
      · rintro ⟨name, key, hmem, ⟨he, rfl⟩ | ⟨he, -⟩⟩
        · cases he
          exact ⟨key, ⟨name, hmem, rfl⟩, rfl⟩
        · cases he
  | up n =>
      simp only [key?, Option.map_eq_some_iff, Keymap.key?_standard_iff]
      constructor
      · rintro ⟨key, ⟨name, hmem, rfl⟩, rfl⟩
        exact ⟨name, key, hmem, .inr ⟨rfl, rfl⟩⟩
      · rintro ⟨name, key, hmem, ⟨he, -⟩ | ⟨he, rfl⟩⟩
        · cases he
        · cases he
          exact ⟨key, ⟨name, hmem, rfl⟩, rfl⟩
  | _ => simp [key?]

theorem typed_cons {e : Event} (h : e.stays = true) (batch : List Event) :
    typed (e :: batch) = e.key?.toList ++ typed batch := by
  rw [typed, List.takeWhile_cons, if_pos h, List.filterMap_cons]
  cases e.key? <;> rfl

theorem all_stays_eq_false_iff {batch : List Event} (h : .interrupt ∉ batch) :
    batch.all stays = false ↔ .quit ∈ batch ∨ .down Window.escape ∈ batch := by
  rw [List.all_eq_false]
  constructor
  · rintro ⟨e, hmem, hleaves⟩
    cases e with
    | quit => exact .inl hmem
    | interrupt => exact absurd hmem h
    | down n =>
        have hn : n = Window.escape := by simpa [stays] using hleaves
        rw [hn] at hmem
        exact .inr hmem
    | _ => exact absurd rfl hleaves
  · rintro (hmem | hmem)
    · exact ⟨_, hmem, by decide⟩
    · exact ⟨_, hmem, by decide⟩

end Event

namespace Window

theorem deliver_stays {e : Event} (h : e.stays = true) (k : Keypad) (batch : List Event) :
    ∃ next, k.setKeys e.key?.toList = .ok next ∧ deliver (e :: batch) k = deliver batch next := by
  cases e with
  | quit => cases h
  | interrupt => cases h
  | other => exact ⟨k, rfl, rfl⟩
  | down n =>
      have hne : n ≠ escape := by simpa [Event.stays] using h
      rw [deliver, if_neg hne, Event.key?]
      cases Keymap.standard.key? n with
      | none => exact ⟨k, rfl, rfl⟩
      | some key => exact ⟨k.set key true, Keypad.setKeys_cons (k.setKey_toNat key true) [], rfl⟩
  | up n =>
      rw [deliver, Event.key?]
      cases Keymap.standard.key? n with
      | none => exact ⟨k, rfl, rfl⟩
      | some key => exact ⟨k.set key false, Keypad.setKeys_cons (k.setKey_toNat key false) [], rfl⟩

theorem deliver_typed {batch : List Event} (h : .interrupt ∉ batch) (k : Keypad) :
    ∃ after, k.setKeys (Event.typed batch) = .ok after ∧
      deliver batch k = (batch.all Event.stays, after) := by
  induction batch generalizing k with
  | nil => exact ⟨k, rfl, rfl⟩
  | cons e batch ih =>
      have hrest : .interrupt ∉ batch := fun hmem => h (List.mem_cons_of_mem e hmem)
      cases hstays : e.stays with
      | true =>
          obtain ⟨next, hnext, hdeliver⟩ := deliver_stays hstays k batch
          obtain ⟨after, hafter, hbatch⟩ := ih hrest next
          refine ⟨after, ?_, ?_⟩
          · rw [Event.typed_cons hstays, Keypad.setKeys_append hnext, hafter]
          · rw [hdeliver, hbatch, List.all_cons, hstays, Bool.true_and]
      | false =>
          have hnone : Event.typed (e :: batch) = [] := by
            rw [Event.typed, List.takeWhile_cons, hstays]
            rfl
          refine ⟨k, by rw [hnone]; rfl, ?_⟩
          rw [List.all_cons, hstays, Bool.false_and]
          cases e with
          | quit => rfl
          | interrupt => exact absurd List.mem_cons_self h
          | other => cases hstays
          | up n => cases hstays
          | down n =>
              have hn : n = escape := by simpa [Event.stays] using hstays
              rw [deliver, if_pos hn]

/-- The host and the keypad after some polls of a window with nothing else between them. -/
def polls (w : Window) (h : Host) (k : Keypad) : Nat → Host × Keypad
  | 0 => (h, k)
  | n + 1 => (w.poll (w.polls h k n).1 (w.polls h k n).2).2

theorem poll_typed {w : Window} (hw : w.running = true) {h : Host} {batch : List Event}
    (hb : h.batches.headD [] = batch) (hi : .interrupt ∉ batch) (k : Keypad) :
    ∃ after, k.setKeys (Event.typed batch) = .ok after ∧
      w.poll h k =
        (.ok (batch.all Event.stays), { h with batches := h.batches.tail }, after) := by
  obtain ⟨after, hafter, hdeliver⟩ := deliver_typed hi k
  refine ⟨after, hafter, ?_⟩
  simp only [poll, if_pos hw, Host.events_of_batch hb hi, hdeliver]

theorem poll_after_polls {w : Window} (hw : w.running = true) {h : Host}
    (hi : ∀ batch ∈ h.batches, .interrupt ∉ batch) {k : Keypad} {n : Nat}
    (hhost : (w.polls h k n).1 = { h with batches := h.batches.drop n }) :
    ∃ after, (w.polls h k n).2.setKeys (Event.typed (h.batches.getD n [])) = .ok after ∧
      w.poll (w.polls h k n).1 (w.polls h k n).2 =
        (.ok ((h.batches.getD n []).all Event.stays), { h with batches := h.batches.drop (n + 1) },
          after) := by
  have hhead : (w.polls h k n).1.batches.headD [] = h.batches.getD n [] := by
    rw [hhost, Event.headD_drop]
  have hbatch : .interrupt ∉ h.batches.getD n [] := Event.forall_getD hi nofun n
  obtain ⟨after, hafter, hpoll⟩ := poll_typed hw hhead hbatch (w.polls h k n).2
  refine ⟨after, hafter, ?_⟩
  rw [hpoll, hhost, List.tail_drop]

theorem polls_typed {w : Window} (hw : w.running = true) {h : Host}
    (hi : ∀ batch ∈ h.batches, .interrupt ∉ batch) (k : Keypad) (n : Nat) :
    (w.polls h k n).1 = { h with batches := h.batches.drop n } ∧
      k.setKeys ((h.batches.take n).flatMap Event.typed) = .ok (w.polls h k n).2 := by
  induction n with
  | zero => exact ⟨rfl, rfl⟩
  | succ n ih =>
      obtain ⟨hhost, hkeys⟩ := ih
      obtain ⟨after, hafter, hpoll⟩ := poll_after_polls hw hi hhost
      have htaken : (h.batches.take (n + 1)).flatMap Event.typed =
          (h.batches.take n).flatMap Event.typed ++ Event.typed (h.batches.getD n []) := by
        rw [List.take_add_one, List.flatMap_append, List.getD_eq_getElem?_getD]
        cases h.batches[n]? <;> simp [Event.typed]
      rw [polls, hpoll, htaken, Keypad.setKeys_append hkeys, hafter]
      exact ⟨rfl, rfl⟩

theorem polls_apply_events_before_quit (w : Window) {h : Host}
    (hi : ∀ batch ∈ h.batches, .interrupt ∉ batch) (k : Keypad) (n : Nat) :
    (w.running = true →
      let now := w.polls h k n
      let batch := h.batches.getD n []
      k.setKeys ((h.batches.take n).flatMap Event.typed) = .ok now.2 ∧
        ∃ stays after,
          w.poll now.1 now.2 = (.ok stays, { h with batches := h.batches.drop (n + 1) }, after) ∧
            (stays = false ↔ .quit ∈ batch ∨ .down escape ∈ batch) ∧
            now.2.setKeys (Event.typed batch) = .ok after) ∧
      (w.running = false → w.poll h k = (.ok false, h, k)) ∧
      (∀ (e : Event) (event : Int × Bool), e.key? = some event ↔
        ∃ name key, (name, key) ∈ Keymap.layout ∧
          (e = .down (Keymap.code name) ∧ event = ((key.toNat : Int), true) ∨
            e = .up (Keymap.code name) ∧ event = ((key.toNat : Int), false))) ∧
      (Event.up escape).key? = none := by
  refine ⟨?_, ?_, Event.key?_eq_some_iff, ?_⟩
  · intro hw now batch
    obtain ⟨hhost, hkeys⟩ := polls_typed hw hi k n
    have hbatch : .interrupt ∉ batch := Event.forall_getD hi nofun n
    obtain ⟨after, hafter, hpoll⟩ := poll_after_polls hw hi hhost
    exact ⟨hkeys, _, after, hpoll, Event.all_stays_eq_false_iff hbatch, hafter⟩
  · intro hw
    rw [poll, hw]
    rfl
  · rw [Event.key?, Keymap.key?_escape]
    rfl

/-- Three batches: one that no event cuts short, one with a quit in it, one with an Escape. -/
def hurried : Host :=
  { Host.idle with
    batches :=
      [[.up 27, .down 49, .other, .up 49], [.down 113, .quit, .up 113],
        [.up 118, .down 999, .down 27, .up 49]] }

theorem polls_apply_events_before_quit_of_hurried :
    let w := Window.mk 15 defaultTitle true
    let now := w.polls hurried Keypad.idle 2
    (∀ batch ∈ hurried.batches, .interrupt ∉ batch) ∧
      Keypad.idle.setKeys [(1, true), (1, false), (4, true)] = .ok now.2 ∧
      now.2.released = some 1 ∧
      ∃ after, w.poll now.1 now.2 = (.ok false, { hurried with batches := [] }, after) ∧
        now.2.setKeys [(15, false)] = .ok after ∧ after.released = some 15 ∧
        after.down.get 4 = true := by
  intro w now
  have hi : ∀ batch ∈ hurried.batches, .interrupt ∉ batch := by decide
  obtain ⟨hopen, -, -, -⟩ := polls_apply_events_before_quit w hi Keypad.idle 2
  obtain ⟨hkeys, stays, after, hpoll, hstays, hafter⟩ := hopen rfl
  have hleaves : stays = false := hstays.mpr (.inr (by decide))
  have hlast : after = (w.poll now.1 now.2).2.2 := by rw [hpoll]
  have hkeypads : now.2.released = some 1 ∧ (w.poll now.1 now.2).2.2.released = some 15 ∧
      (w.poll now.1 now.2).2.2.down.get 4 = true := by
    decide +kernel
  rw [← hlast] at hkeypads
  rw [hleaves] at hpoll
  exact ⟨hi, hkeys, hkeypads.1, after, hpoll, hafter, hkeypads.2.1, hkeypads.2.2⟩

end Window

end ChipEight
