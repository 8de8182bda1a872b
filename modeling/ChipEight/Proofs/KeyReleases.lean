import ChipEight.Proofs.ToneLength
import Mathlib.Data.List.Induction

/-!
Who gets a key release. A wait takes the newest release behind the last wait that completed, if
there is one, and holds the machine while only its clock and timers go on (`Session.unclaimed`).
-/

namespace ChipEight

namespace Command

/-- The key event of a command, if the keypad accepts it. -/
def keyEvent? : Command → Option (Nibble × Bool)
  | .key n pressed => (keyOfInt? n).map fun k => (k, pressed)
  | _ => none

def release? (c : Command) : Option Nibble :=
  match c.keyEvent? with
  | some (k, false) => some k
  | _ => none

end Command

def Instruction.setsTimer : Instruction → Bool
  | .setDelay _ | .setSound _ => true
  | _ => false

namespace Machine

theorem execute_timing (m : Machine) {i : Instruction} (hi : i.setsTimer = false) :
    (m.execute i).timing = m.timing := by
  rw [timing, timing, execute_clock, execute_delay, execute_sound]
  cases i with
  | setDelay x => cases hi
  | setSound x => cases hi
  | _ => rfl

theorem execute_keypad (m : Machine) (i : Instruction) :
    (m.execute i).keypad =
      match i with
      | .awaitRelease _ => { m.keypad with released := none }
      | _ => m.keypad := by
  cases i with
  | arithmetic op x y => cases op <;> rfl
  | awaitRelease x =>
      simp only [execute, awaitRelease]
      split
      · next h => rw [← h]
      · rfl
  | _ => rfl

theorem setKey_of_key (m : Machine) {key : Int} {k : Nibble} (h : keyOfInt? key = some k)
    (pressed : Bool) : m.setKey key pressed = .ok { m with keypad := m.keypad.set k pressed } := by
  simp only [setKey, Keypad.setKey, h, Except.map]

theorem setKey_of_no_key (m : Machine) {key : Int} (h : keyOfInt? key = none) (pressed : Bool) :
    m.setKey key pressed = .error (.keyOutOfRange key) := by
  simp only [setKey, Keypad.setKey, h, Except.map]

end Machine

namespace Session

/-- Whether a command is a step that finds `Fx0A` and goes on behind it. -/
def completesWait (s : Session) (c : Command) : Bool :=
  match s.instruction? c with
  | some (.awaitRelease _) => (s.perform c).2.machine.pc != s.machine.pc
  | _ => false

/-- The releases of a run since the last wait that completed, each with its position in the run, the
newest first. -/
def unclaimed (s : Session) (cs : List Command) : List (Nat × Nibble) :=
  ((s.trace cs).zipIdx.reverse.takeWhile fun v => !v.1.1.completesWait v.1.2).filterMap fun v =>
    v.1.2.release?.map fun key => (v.2, key)

theorem trace_concat (s : Session) (cs : List Command) (c : Command) :
    s.trace (cs ++ [c]) = s.trace cs ++ [(s.after cs, c)] := by
  induction cs generalizing s with
  | nil => rfl
  | cons d cs ih => simp only [List.cons_append, trace, after, ih]

theorem length_trace (s : Session) (cs : List Command) : (s.trace cs).length = cs.length := by
  induction cs generalizing s with
  | nil => rfl
  | cons c cs ih => simp only [trace, List.length_cons, ih]

theorem unclaimed_concat (s : Session) (cs : List Command) (c : Command) :
    s.unclaimed (cs ++ [c]) =
      if (s.after cs).completesWait c then []
      else (c.release?.map fun key => (cs.length, key)).toList ++ s.unclaimed cs := by
  rw [unclaimed, trace_concat, List.zipIdx_append, List.reverse_append, length_trace, Nat.zero_add]
  simp only [List.zipIdx_singleton, List.reverse_singleton, List.singleton_append,
    List.takeWhile_cons]
  cases (s.after cs).completesWait c with
  | true => rfl
  | false =>
      rw [Bool.not_false, if_pos rfl, List.filterMap_cons, if_neg Bool.false_ne_true]
      cases c.release? <;> rfl

theorem release_of_mem_unclaimed {s : Session} {cs : List Command} {v : Nat × Nibble}
    (h : v ∈ s.unclaimed cs) : ∃ c, cs[v.1]? = some c ∧ c.release? = some v.2 := by
  induction cs using List.reverseRecOn with
  | nil => cases h
  | append_singleton cs c ih =>
      rw [unclaimed_concat] at h
      split at h
      · cases h
      · rcases List.mem_append.mp h with hv | hv
        · obtain ⟨key, hk, rfl⟩ := Option.map_eq_some_iff.mp (Option.mem_toList.mp hv)
          exact ⟨c, List.getElem?_concat_length, hk⟩
        · obtain ⟨d, hd, hr⟩ := ih hv
          have hlt : v.1 < cs.length := (List.getElem?_eq_some_iff.mp hd).1
          exact ⟨d, (List.getElem?_append_left hlt).trans hd, hr⟩

theorem lt_of_mem_unclaimed {s : Session} {cs ds : List Command} {c : Command} {v : Nat × Nibble}
    (hc : (s.after cs).completesWait c = true) (h : v ∈ s.unclaimed (cs ++ c :: ds)) :
    cs.length < v.1 := by
  induction ds using List.reverseRecOn with
  | nil =>
      rw [unclaimed_concat, if_pos hc] at h
      cases h
  | append_singleton ds d ih =>
      rw [← List.cons_append, ← List.append_assoc, unclaimed_concat] at h
      split at h
      · cases h
      · rcases List.mem_append.mp h with hv | hv
        · obtain ⟨key, -, rfl⟩ := Option.map_eq_some_iff.mp (Option.mem_toList.mp hv)
          simp only [List.length_append, List.length_cons]
          omega
        · exact ih hv

theorem completesWait_of_wait {s : Session} {x : Nibble}
    (hi : s.instruction? .step = some (.awaitRelease x)) :
    s.completesWait .step = s.machine.keypad.released.isSome := by
  have ht : Machine.Timeless Machine.pc := fun _ _ _ _ _ _ => rfl
  have hpc : (s.perform .step).2.machine.pc = (s.machine.execute (.awaitRelease x)).pc :=
    step_timeless ht hi
  rw [completesWait, hi]
  simp only [hpc, Machine.execute, Machine.awaitRelease]
  cases s.machine.keypad.released with
  | none => simp
  | some key => simp

theorem keyEvent?_of_completesWait {s : Session} {c : Command} (h : s.completesWait c = true) :
    c.keyEvent? = none := by
  cases c with
  | key key pressed => cases h
  | _ => rfl

theorem perform_keypad (s : Session) (c : Command) :
    (s.perform c).2.machine.keypad =
      if s.completesWait c then { s.machine.keypad with released := none }
      else c.keyEvent?.elim s.machine.keypad fun event => s.machine.keypad.set event.1 event.2 := by
  have hkeypad : Machine.Timeless Machine.keypad := fun _ _ _ _ _ _ => rfl
  cases c with
  | step =>
      cases hi : s.instruction? .step with
      | none =>
          have hw : Instruction.ofWord? s.machine.fetch = none := hi
          rw [perform, step_refused hw]
          simp only [completesWait, hi]
          rfl
      | some i =>
          have hstep : (s.perform .step).2.machine.keypad = (s.machine.execute i).keypad :=
            step_timeless hkeypad hi
          rw [hstep, Machine.execute_keypad]
          cases i with
          | awaitRelease x =>
              rw [completesWait_of_wait hi]
              cases hr : s.machine.keypad.released with
              | none => simp [Command.keyEvent?, ← hr]
              | some key => simp
          | _ =>
              simp only [completesWait, hi]
              rfl
  | tick => exact tick_timeless hkeypad s
  | key key pressed =>
      change (s.perform (.key key pressed)).2.machine.keypad =
        ((keyOfInt? key).map fun k => (k, pressed)).elim _ _
      cases hk : keyOfInt? key with
      | none => simp only [perform, Machine.setKey_of_no_key _ hk]; rfl
      | some k => simp only [perform, Machine.setKey_of_key _ hk]; rfl
  | load image =>
      obtain ⟨memory, hm⟩ := Machine.load_machine s.machine image
      simp only [perform, hm]
      rfl
  | write address value => rfl
  | push value => rfl
  | pop => rfl

theorem unclaimed_head {s : Session} (hs : s.machine.keypad.released = none) (cs : List Command) :
    (s.after cs).machine.keypad.released = (s.unclaimed cs).head?.map Prod.snd := by
  -- A new command clears the marker, replaces it or leaves it, and does the same to the newest
  -- release that is left.
  induction cs using List.reverseRecOn with
  | nil => exact hs
  | append_singleton cs c ih =>
      rw [after_append, unclaimed_concat]
      change ((s.after cs).perform c).2.machine.keypad.released = _
      rw [perform_keypad]
      cases (s.after cs).completesWait c with
      | true => rfl
      | false =>
          rw [if_neg Bool.false_ne_true, if_neg Bool.false_ne_true]
          unfold Command.release?
          cases c.keyEvent? with
          | none => exact ih
          | some event =>
              obtain ⟨k, pressed⟩ := event
              cases pressed with
              | true => exact ih
              | false => rfl

theorem perform_down (s : Session) (c : Command) :
    (s.perform c).2.machine.keypad.down =
      c.keyEvent?.elim s.machine.keypad.down fun event =>
        s.machine.keypad.down.set event.1 event.2 := by
  rw [perform_keypad]
  cases hc : s.completesWait c with
  | true =>
      rw [keyEvent?_of_completesWait hc]
      rfl
  | false =>
      rw [if_neg Bool.false_ne_true]
      cases c.keyEvent? <;> rfl

theorem down_after (s : Session) (cs : List Command) (k : Nibble) :
    (s.after cs).machine.keypad.down.get k =
      ((cs.filterMap Command.keyEvent?).reverse.lookup k).getD (s.machine.keypad.down.get k) := by
  induction cs using List.reverseRecOn with
  | nil => rfl
  | append_singleton cs c ih =>
      rw [after_append, List.filterMap_append, List.reverse_append]
      change ((s.after cs).perform c).2.machine.keypad.down.get k = _
      rw [perform_down, List.filterMap_cons]
      cases c.keyEvent? with
      | none => exact ih
      | some event =>
          obtain ⟨key, pressed⟩ := event
          simp only [Option.elim, List.filterMap_nil, List.reverse_singleton,
            List.singleton_append, List.lookup_cons, Bank.get_set]
          by_cases hk : key = k
          · simp [hk]
          · rw [if_neg hk, ih, beq_false_of_ne (Ne.symm hk)]

theorem perform_retime {s : Session} {i : Instruction} (hi : s.instruction? .step = some i) :
    (s.perform .step).2.machine =
      (s.machine.execute i).retime (s.perform .step).2.machine.timing := by
  have hstep : (s.perform .step).2 = (s.settle (s.machine.execute i).count).2 := by
    rw [perform, step_executed hi]
  have hcount := Machine.count_retime (s.machine.execute i)
  rw [hstep]
  rcases settle_machine s (s.machine.execute i).count with hm | hm
  · rw [hm]
    exact hcount.2
  · rw [hm]
    exact hcount.1

theorem fault_of_executed {s : Session} {i : Instruction} (hi : s.instruction? .step = some i)
    {fault : Fault} (h : (s.perform .step).1 = .error fault) :
    ∃ message, fault = .listener message := by
  rw [perform, step_executed hi] at h
  generalize hs : s.settle (s.machine.execute i).count = settled at h
  obtain ⟨answer, t⟩ := settled
  cases answer with
  | ok u => cases h
  | error f =>
      cases h
      exact settle_fault hs

/-- Two sessions at one moment of their timing, before one listener. -/
structure Abreast (s u : Session) : Prop where
  timing : s.machine.timing = u.machine.timing
  listener : s.listener = u.listener
  heard : s.heard = u.heard

theorem Abreast.settle {s u : Session} (h : Abreast s u) {a b : Turn} (he : a.edge = b.edge)
    (hedge : a.atEdge.timing = b.atEdge.timing) (hsettled : a.settled.timing = b.settled.timing) :
    (s.settle a).1 = (u.settle b).1 ∧ Abreast (s.settle a).2 (u.settle b).2 := by
  obtain ⟨-, hlistener, hheard⟩ := h
  simp only [Session.settle, hlistener, hheard, he]
  split
  · split
    · exact ⟨rfl, hsettled, rfl, rfl⟩
    · exact ⟨rfl, hedge, rfl, rfl⟩
  · exact ⟨rfl, hsettled, rfl, rfl⟩

theorem Abreast.step {s u : Session} (h : Abreast s u) {i j : Instruction}
    (hs : s.instruction? .step = some i) (hi : i.setsTimer = false)
    (hu : u.instruction? .step = some j) (hj : j.setsTimer = false) :
    (s.perform .step).1 = (u.perform .step).1 ∧
      Abreast (s.perform .step).2 (u.perform .step).2 := by
  have hexecuted : (s.machine.execute i).timing = (u.machine.execute j).timing := by
    rw [Machine.execute_timing _ hi, Machine.execute_timing _ hj, h.timing]
  obtain ⟨he, hedge, hsettled⟩ := Machine.count_of_timing hexecuted
  obtain ⟨hresult, habreast⟩ := h.settle he hedge hsettled
  rw [perform, perform, step_executed hs, step_executed hu]
  exact ⟨congrArg (Except.map fun _ => none) hresult, habreast⟩

theorem releases_taken_once (cyclesPerTick : Nat) (source : Source) (listener : Option Listener)
    (past : List Command) :
    let fresh := start (Machine.fresh cyclesPerTick source) listener
    let s := fresh.after past
    let t := (s.perform .step).2
    let left := fresh.unclaimed past
    (∀ k, s.machine.keypad.down.get k =
      ((past.filterMap Command.keyEvent?).reverse.lookup k).getD false) ∧
    (∀ v ∈ left, ∃ c, past[v.1]? = some c ∧ c.release? = some v.2) ∧
    ∀ x, s.instruction? .step = some (.awaitRelease x) →
      (s.completesWait .step = true ↔ left ≠ []) ∧
      (∀ v older, left = v :: older →
        t.machine =
          { s.machine with
            v := s.machine.v.set x (v.2.setWidth 8)
            keypad := { s.machine.keypad with released := none }
            pc := s.machine.pc + 2 }.retime t.machine.timing ∧
        ∀ more, ∀ w ∈ fresh.unclaimed (past ++ .step :: more), past.length < w.1) ∧
      (left = [] → t.machine = s.machine.retime t.machine.timing) ∧
      ∀ u i, Abreast s u → u.instruction? .step = some i → i.setsTimer = false →
        (s.perform .step).1 = (u.perform .step).1 ∧ Abreast t (u.perform .step).2 := by
  intro fresh s t left
  have hreleased : s.machine.keypad.released = left.head?.map Prod.snd :=
    unclaimed_head rfl past
  refine ⟨?_, fun v hv => release_of_mem_unclaimed hv, ?_⟩
  · intro k
    have hdown : s.machine.keypad.down.get k = _ := down_after fresh past k
    rw [hdown]
    congr 1
    exact Bank.get_fill false k
  intro x hx
  have hcompletes : s.completesWait .step = s.machine.keypad.released.isSome :=
    completesWait_of_wait hx
  have ht : t.machine = (s.machine.awaitRelease x).retime t.machine.timing := perform_retime hx
  refine ⟨?_, ?_, ?_, ?_⟩
  · rw [hcompletes, hreleased]
    cases left <;> simp
  · intro v older hleft
    rw [hleft] at hreleased
    have htaken : s.completesWait .step = true := by
      rw [hcompletes, hreleased]
      rfl
    refine ⟨?_, fun more w hw => lt_of_mem_unclaimed htaken hw⟩
    rw [Machine.awaitRelease, hreleased] at ht
    exact ht
  · intro hleft
    rw [hleft] at hreleased
    rw [Machine.awaitRelease, hreleased] at ht
    exact ht
  · intro u i hu hi hsets
    exact hu.step hx rfl hi hsets

/-- Two keys go down and up before the first of two waits. -/
def twoKeys : List Command :=
  [.load (.bytes [0xF0, 0x0A, 0xF1, 0x0A]), .key 3 true, .key 5 true, .key 3 false, .key 5 false]

theorem releases_taken_once_by_two_waits :
    ∃ fresh first second, fresh = start (Machine.fresh 1 Source.silent) none ∧
      first = fresh.after twoKeys ∧ second = fresh.after (twoKeys ++ [.step]) ∧
      fresh.unclaimed twoKeys = [(4, 5), (3, 3)] ∧
      first.instruction? .step = some (.awaitRelease 0) ∧
      second.machine.v.get 0 = 5 ∧ second.machine.keypad.released = none ∧
      fresh.unclaimed (twoKeys ++ [.step]) = [] ∧
      second.instruction? .step = some (.awaitRelease 1) ∧
      second.completesWait .step = false ∧
      (second.perform .step).2.machine =
        second.machine.retime (second.perform .step).2.machine.timing := by
  have htake := (releases_taken_once 1 Source.silent none twoKeys).2.2
  have hhold := (releases_taken_once 1 Source.silent none (twoKeys ++ [.step])).2.2
  obtain ⟨fresh, hfresh⟩ : ∃ s, s = start (Machine.fresh 1 Source.silent) none := ⟨_, rfl⟩
  rw [← hfresh] at htake hhold
  obtain ⟨first, hfirst⟩ : ∃ s, s = fresh.after twoKeys := ⟨_, rfl⟩
  obtain ⟨second, hsecond⟩ : ∃ s, s = fresh.after (twoKeys ++ [.step]) := ⟨_, rfl⟩
  have hnext : second = (first.perform .step).2 := by
    rw [hsecond, hfirst, after_append]
    rfl
  have hreleases : fresh.unclaimed twoKeys = [(4, 5), (3, 3)] ∧
      first.instruction? .step = some (.awaitRelease 0) := by
    rw [hfirst, hfresh]
    decide +kernel
  have hnone : fresh.unclaimed (twoKeys ++ [.step]) = [] ∧
      second.instruction? .step = some (.awaitRelease 1) := by
    rw [hsecond, hfresh]
    decide +kernel
  rw [← hfirst] at htake
  rw [← hsecond] at hhold
  obtain ⟨-, hnewest, -, -⟩ := htake 0 hreleases.2
  obtain ⟨hiff, -, hheld, -⟩ := hhold 1 hnone.2
  have hmachine := (hnewest (4, 5) [(3, 3)] hreleases.1).1
  rw [← hnext] at hmachine
  refine ⟨fresh, first, second, hfresh, hfirst, hsecond, hreleases.1, hreleases.2, ?_, ?_,
    hnone.1, hnone.2, ?_, hheld hnone.1⟩
  · have hv : second.machine.v = first.machine.v.set 0 5 := congrArg Machine.v hmachine
    rw [hv, Bank.get_set_self]
  · exact congrArg (fun m : Machine => m.keypad.released) hmachine
  · refine Bool.eq_false_iff.mpr ?_
    intro h
    exact hiff.mp h hnone.1

end Session

end ChipEight
