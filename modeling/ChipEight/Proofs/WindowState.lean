import ChipEight.Proofs.WindowClosing
import Mathlib.Data.List.Induction

/-!
A window that is started, stopped, polled and drawn in any order. It runs exactly while the host has
it open, but for one case: a start that the host refuses closes the window that was open before, and
what is drawn from then on is drawn on no window, until the next stop or the next start that the
host grants (`HostedWindow.Lost`).
-/

namespace ChipEight

def Call.draws : Call → Bool
  | .blitArray _ => true
  | .scale _ _ => true
  | .blit _ _ => true
  | .flip => true
  | _ => false

theorem HostView.read_of_draws (v : HostView) {c : Call} (h : c.draws = true) : v.read c = v := by
  cases c with
  | blitArray pixels => rfl
  | scale width height => rfl
  | blit width height => rfl
  | flip => rfl
  | _ => cases h

theorem HostView.readAll_of_draws (v : HostView) {calls : List Call}
    (h : ∀ c ∈ calls, c.draws = true) : v.readAll calls = v := by
  induction calls with
  | nil => rfl
  | cons c calls ih =>
      have hc : v.read c = v := v.read_of_draws (h c List.mem_cons_self)
      change (v.read c).readAll calls = v
      rw [hc]
      exact ih fun d hd => h d (List.mem_cons_of_mem c hd)

theorem HostView.readAll_append (v : HostView) (calls more : List Call) :
    v.readAll (calls ++ more) = (v.readAll calls).readAll more :=
  List.foldl_append

theorem Host.calls_setMode (h : Host) (width height : Nat) :
    (h.setMode width height).2.calls = h.calls ++ [.setMode width height] := by
  unfold setMode
  split
  · exact calls_record _ _
  · exact calls_record _ _

theorem Window.start_calls (w : Window) (h : Host) :
    ∃ more, (w.start h).2.2.calls = h.calls ++ more ∧ ∀ c ∈ more, c.draws = false := by
  unfold start
  split
  · exact ⟨[], (List.append_nil _).symm, nofun⟩
  · have hc := ((h.record .init).record (.caption w.title)).calls_setMode w.width w.height
    rw [Host.calls_record, Host.calls_record] at hc
    split
    · next message k hk =>
        rw [hk] at hc
        refine ⟨[.init, .caption w.title, .setMode w.width w.height, .quitVideo], ?_, ?_⟩
        · rw [Host.calls_record, hc]
          simp
        · simp [Call.draws]
    · next k hk =>
        rw [hk] at hc
        refine ⟨[.init, .caption w.title, .setMode w.width w.height,
          .surface Screen.width Screen.height 0 32], ?_, ?_⟩
        · rw [Host.calls_record, hc]
          simp
        · simp [Call.draws]

theorem Host.calls_events (h : Host) : h.events.2.calls = h.calls := by
  unfold events
  split
  · rfl
  · rfl

theorem Window.poll_calls (w : Window) (h : Host) (k : Keypad) :
    (w.poll h k).2.1.calls = h.calls := by
  have he := h.calls_events
  unfold poll
  split
  · split
    · next hk => rwa [hk] at he
    · next hk => rwa [hk] at he
  · rfl

structure HostedWindow where
  window : Window
  host : Host

namespace HostedWindow

inductive Use where
  | start
  | stop
  | poll (k : Keypad)
  | render (s : Screen)

def act (p : HostedWindow) : Use → HostedWindow
  | .start => ⟨(p.window.start p.host).2.1, (p.window.start p.host).2.2⟩
  | .stop => ⟨(p.window.stop p.host).1, (p.window.stop p.host).2⟩
  | .poll k => ⟨p.window, (p.window.poll p.host k).2.1⟩
  | .render s => ⟨p.window, p.window.render s p.host⟩

def after (p : HostedWindow) : List Use → HostedWindow
  | [] => p
  | u :: us => (p.act u).after us

/-- The uses of a window, each with the window that it finds. -/
def trace (p : HostedWindow) : List Use → List (HostedWindow × Use)
  | [] => []
  | u :: us => (p, u) :: (p.act u).trace us

/-- Whether a use is a stop, or a start that the host grants. -/
def settles (p : HostedWindow) : Use → Bool
  | .start => (p.window.start p.host).1.isOk
  | .stop => true
  | _ => false

def Refused (p : HostedWindow) (u : Use) : Prop :=
  u = .start ∧ ∃ message, (p.window.start p.host).1 = .error (.displayUnavailable message)

/-- A start was refused while the window was running, and no stop and no granted start came after
it. -/
def Lost (p : HostedWindow) (us : List Use) : Prop :=
  ∃ v ∈ (p.trace us).reverse.takeWhile fun v => !v.1.settles v.2,
    v.1.window.running = true ∧ v.1.Refused v.2

theorem after_concat (p : HostedWindow) (us : List Use) (u : Use) :
    p.after (us ++ [u]) = (p.after us).act u := by
  induction us generalizing p with
  | nil => rfl
  | cons v us ih => exact ih (p.act v)

theorem trace_concat (p : HostedWindow) (us : List Use) (u : Use) :
    p.trace (us ++ [u]) = p.trace us ++ [(p.after us, u)] := by
  induction us generalizing p with
  | nil => rfl
  | cons v us ih => simp only [List.cons_append, trace, after, ih]

theorem not_lost_nil (p : HostedWindow) : ¬ p.Lost [] := by
  rintro ⟨v, hv, -⟩
  cases hv

theorem lost_concat (p : HostedWindow) (us : List Use) (u : Use) :
    p.Lost (us ++ [u]) ↔
      (p.after us).settles u = false ∧
        ((p.after us).window.running = true ∧ (p.after us).Refused u ∨ p.Lost us) := by
  unfold Lost
  rw [trace_concat, List.reverse_append, List.reverse_singleton, List.singleton_append,
    List.takeWhile_cons]
  cases hs : (p.after us).settles u with
  | true => simp
  | false => simp

/-- The log of the host, from `h` on, agrees with a window that may have been lost. -/
structure Agrees (h : Host) (p : HostedWindow) (lost : Prop) : Prop where
  log : ∃ isOpen, h.Since isOpen false p.host ∧
    (isOpen = true ↔ p.window.running = true ∧ ¬ lost)
  running : lost → p.window.running = true

section Agrees

variable {h : Host} {p : HostedWindow} {lost : Prop}

theorem Agrees.congr (ha : Agrees h p lost) {now : Prop} (hn : now ↔ lost) : Agrees h p now := by
  rwa [propext hn]

theorem Agrees.start (ha : Agrees h p lost) :
    Agrees h (p.act .start)
      (p.settles .start = false ∧ (p.window.running = true ∧ p.Refused .start ∨ lost)) := by
  obtain ⟨⟨isOpen, hs, hiff⟩, hrunning⟩ := ha
  rcases p.window.start_since hs with ⟨-, k, hk, hopen⟩ | ⟨-, hk | ⟨message, k, hk, hclosed⟩⟩
  · have hn : p.settles .start = true := by
      rw [settles, hk]
      rfl
    have hnow : Agrees h (p.act .start) False := by
      simp only [act, hk]
      exact ⟨⟨true, hopen, by simp⟩, False.elim⟩
    exact hnow.congr (by simp [hn])
  · have hn : p.settles .start = false := by
      rw [settles, hk]
      rfl
    have hr : ¬ p.Refused .start := by
      rintro ⟨-, message, hm⟩
      rw [hk] at hm
      cases hm
    have hnow : Agrees h (p.act .start) lost := by
      simp only [act, hk]
      exact ⟨⟨isOpen, hs, hiff⟩, hrunning⟩
    exact hnow.congr (by simp [hn, hr])
  · have hn : p.settles .start = false := by
      rw [settles, hk]
      rfl
    have hr : p.Refused .start := ⟨rfl, message, by rw [hk]⟩
    have hnow : Agrees h (p.act .start) (p.window.running = true) := by
      simp only [act, hk]
      exact ⟨⟨false, hclosed, by simp⟩, id⟩
    refine hnow.congr ?_
    constructor
    · rintro ⟨-, ⟨hw, -⟩ | hl⟩
      · exact hw
      · exact hrunning hl
    · intro hw
      exact ⟨hn, .inl ⟨hw, hr⟩⟩

theorem Agrees.stop (ha : Agrees h p lost) : Agrees h (p.act .stop) False := by
  obtain ⟨⟨isOpen, hs, hiff⟩, -⟩ := ha
  simp only [act, Window.stop]
  split
  · exact ⟨⟨false, hs.record rfl, by simp⟩, False.elim⟩
  · next hw =>
      refine ⟨⟨isOpen, hs, ?_⟩, False.elim⟩
      simp [hiff, hw]

theorem Agrees.act (ha : Agrees h p lost) (u : Use) :
    Agrees h (p.act u)
      (p.settles u = false ∧ (p.window.running = true ∧ p.Refused u ∨ lost)) := by
  cases u with
  | start => exact ha.start
  | stop => exact ha.stop.congr (by simp [settles])
  | poll k =>
      have hk : Agrees h (p.act (.poll k)) lost := by
        obtain ⟨⟨isOpen, hs, hiff⟩, hrunning⟩ := ha
        refine ⟨⟨isOpen, ?_, hiff⟩, hrunning⟩
        change h.Since isOpen false (p.window.poll p.host k).2.1
        exact p.window.poll_since hs k
      exact hk.congr (by simp [settles, Refused])
  | render s =>
      have hk : Agrees h (p.act (.render s)) lost := by
        obtain ⟨⟨isOpen, hs, hiff⟩, hrunning⟩ := ha
        refine ⟨⟨isOpen, ?_, hiff⟩, hrunning⟩
        exact p.window.render_since hs s
      exact hk.congr (by simp [settles, Refused])

theorem agrees_after (scale : Int) (title : String) (h : Host) (us : List Use) :
    Agrees h (after ⟨Window.create scale title, h⟩ us)
      (Lost ⟨Window.create scale title, h⟩ us) := by
  induction us using List.reverseRecOn with
  | nil =>
      refine ⟨⟨false, h.since_refl, ?_⟩, fun hl => absurd hl (not_lost_nil _)⟩
      simp [after, Window.create]
  | append_singleton us u ih =>
      rw [after_concat]
      exact (ih.act u).congr (lost_concat _ us u)

end Agrees

theorem act_calls (p : HostedWindow) (u : Use) :
    ∃ more, (p.act u).host.calls = p.host.calls ++ more ∧
      ((∀ c ∈ more, c.draws = false) ∨
        (∃ s, u = .render s) ∧ p.window.running = true ∧ ∀ c ∈ more, c.draws = true) := by
  cases u with
  | start =>
      obtain ⟨more, hm, hn⟩ := p.window.start_calls p.host
      exact ⟨more, hm, .inl hn⟩
  | stop =>
      simp only [act, Window.stop]
      split
      · exact ⟨[.quitVideo], Host.calls_record _ _, .inl (by simp [Call.draws])⟩
      · exact ⟨[], (List.append_nil _).symm, .inl nofun⟩
  | poll k =>
      refine ⟨[], ?_, .inl nofun⟩
      rw [List.append_nil]
      exact p.window.poll_calls p.host k
  | render s =>
      simp only [act, Window.render]
      split
      · next hw =>
          refine ⟨[.blitArray s.pixels, .scale p.window.width p.window.height,
            .blit p.window.width p.window.height, .flip], ?_, .inr ⟨⟨s, rfl⟩, hw, ?_⟩⟩
          · simp
          · simp [Call.draws]
      · exact ⟨[], (List.append_nil _).symm, .inl nofun⟩

/-- A drawing call is one of those with which a running window is drawn. -/
theorem drawn_in_render (p : HostedWindow) (us : List Use) {earlier later : List Call} {c : Call}
    (hc : (p.after us).host.calls = p.host.calls ++ (earlier ++ c :: later))
    (hd : c.draws = true) :
    ∃ past s rest drawn, us = past ++ .render s :: rest ∧ (p.after past).window.running = true ∧
      p.host.calls ++ earlier = (p.after past).host.calls ++ drawn ∧
      ∀ d ∈ drawn, d.draws = true := by
  induction us using List.reverseRecOn generalizing later with
  | nil =>
      have hlen := congrArg List.length hc
      simp [after] at hlen
  | append_singleton us u ih =>
      rw [after_concat] at hc
      obtain ⟨more, hm, hu⟩ := (p.after us).act_calls u
      rw [hm, ← List.append_assoc] at hc
      have hlast : ∀ drawn, more = drawn ++ c :: later →
          p.host.calls ++ earlier = (p.after us).host.calls ++ drawn →
          ∃ past s rest drawn, us ++ [u] = past ++ .render s :: rest ∧
            (p.after past).window.running = true ∧
            p.host.calls ++ earlier = (p.after past).host.calls ++ drawn ∧
            ∀ d ∈ drawn, d.draws = true := by
        intro drawn hmore hearlier
        rcases hu with hn | ⟨⟨s, rfl⟩, hw, hall⟩
        · have hc : c.draws = false := hn c (by simp [hmore])
          rw [hd] at hc
          cases hc
        · refine ⟨us, s, [], drawn, rfl, hw, hearlier, ?_⟩
          intro d hdrawn
          exact hall d (by simp [hmore, hdrawn])
      -- The call is one of the last use or one of those before it.
      rcases List.append_eq_append_iff.mp hc with ⟨drawn, hearlier, hmore⟩ | ⟨tail, hold, htail⟩
      · exact hlast drawn hmore hearlier
      · cases tail with
        | nil =>
            rw [List.append_nil] at hold
            exact hlast [] htail.symm (by rw [List.append_nil, hold])
        | cons d tail =>
            obtain ⟨rfl, rfl⟩ := List.cons.inj htail
            rw [List.append_assoc] at hold
            obtain ⟨past, s, rest, drawn, hus, hpast⟩ := ih hold
            refine ⟨past, s, rest ++ [u], drawn, ?_, hpast⟩
            rw [hus, List.append_assoc]
            rfl

theorem window_open_unless_lost (scale : Int) (title : String) (h : Host) (us : List Use) :
    let fresh : HostedWindow := ⟨Window.create scale title, h⟩
    let now := fresh.after us
    ∃ calls, now.host.calls = h.calls ++ calls ∧
      ((h.view.readAll calls).windowOpen = true ↔ now.window.running = true ∧ ¬ fresh.Lost us) ∧
      (fresh.Lost us → now.window.running = true) ∧
      ∀ earlier c later, calls = earlier ++ c :: later → c.draws = true →
        ∃ past s rest drawn, us = past ++ .render s :: rest ∧
          h.calls ++ earlier = (fresh.after past).host.calls ++ drawn ∧
          (∀ d ∈ drawn, d.draws = true) ∧
          ((h.view.readAll earlier).windowOpen = true ↔ ¬ fresh.Lost past) := by
  intro fresh now
  obtain ⟨⟨isOpen, ⟨calls, hcalls, hview⟩, hiff⟩, hrunning⟩ := agrees_after scale title h us
  refine ⟨calls, hcalls, by rw [hview]; exact hiff, hrunning, ?_⟩
  intro earlier c later hsplit hd
  rw [hsplit] at hcalls
  obtain ⟨past, s, rest, drawn, hus, hw, hearlier, hdrawn⟩ := fresh.drawn_in_render us hcalls hd
  refine ⟨past, s, rest, drawn, hus, hearlier, hdrawn, ?_⟩
  obtain ⟨⟨wasOpen, ⟨before, hbefore, hpast⟩, hpastiff⟩, -⟩ := agrees_after scale title h past
  change (fresh.after past).host.calls = h.calls ++ before at hbefore
  rw [hbefore, List.append_assoc] at hearlier
  rw [List.append_cancel_left hearlier, HostView.readAll_append,
    HostView.readAll_of_draws _ hdrawn, hpast, hpastiff]
  exact and_iff_right hw

/-- A host that opens one window and refuses the next. -/
def grantsOnce : Host :=
  { Host.idle with videoErrors := [none, some "No available video device"] }

theorem running_and_drawn_without_window :
    let opened : HostedWindow := ⟨Window.create 1 Window.defaultTitle, grantsOnce⟩
    let restarted := opened.after [.start, .start]
    let drawn := restarted.act (.render Screen.blank)
    restarted.window.running = true ∧
      (grantsOnce.view.readAll restarted.host.calls).windowOpen = false ∧
      drawn.host.calls = restarted.host.calls ++
        [.blitArray Screen.blank.pixels, .scale 64 32, .blit 64 32, .flip] := by
  intro opened restarted drawn
  refine ⟨by decide +kernel, by decide +kernel, ?_⟩
  -- Call by call, so that the pictures are not compared cell by cell.
  rfl

end HostedWindow

end ChipEight
