import ChipEight.Proofs.Footprints
import ChipEight.Proofs.HeadlessRun
import ChipEight.Proofs.Numeric.WellFormed

/-!
What a load leaves in memory (`Machine.Installed`). The same bytes leave the same machine, whatever
holds them, if one reading can give them all; of a source that gives fewer at a time no more is
taken than it gives at once.
-/

namespace ChipEight

/-- The bytes lie one after another from a place on. -/
def Memory.Holds (memory : Memory) (start : Nat) (bytes : List Byte) : Prop :=
  ∀ (k : Nat) (h : k < bytes.length), memory.get (BitVec.ofNat 12 (start + k)) = bytes[k]

namespace Memory

variable {memory : Memory} {start : Nat} {bytes : List Byte} {a : Address}

theorem holds_write (memory : Memory) (start : Nat) (h : bytes.length ≤ 4096) :
    Holds (memory.write (BitVec.ofNat 12 start) bytes) start bytes :=
  fun _ hk => Bank.get_write_inside memory start h hk

theorem get_write_beside (memory : Memory) (h : start + bytes.length ≤ 4096)
    (ha : a.toNat < start ∨ start + bytes.length ≤ a.toNat) :
    (memory.write (BitVec.ofNat 12 start) bytes).get a = memory.get a := by
  have hsize : bytes.length ≤ Bank.size 12 := Nat.le_trans (Nat.le_add_left _ _) h
  apply Bank.get_write_outside _ hsize
  have hlt := a.isLt
  rw [BitVec.toNat_sub, BitVec.toNat_ofNat]
  omega

theorem Holds.get_eq (h : Holds memory start bytes) (hle : start ≤ a.toNat)
    (hlt : a.toNat - start < bytes.length) : memory.get a = bytes[a.toNat - start] := by
  have hk := h (a.toNat - start) hlt
  rwa [Nat.add_sub_cancel' hle, BitVec.ofNat_toNat, BitVec.setWidth_eq] at hk

end Memory

namespace Image

/-- One reading gives as many of these bytes as it is asked for. The items of an image at hand are
single bytes. -/
inductive Holds (data : List Byte) : Image → Prop
  | bytes : Holds data (.bytes data)
  | reader : Holds data (.reader data none)

theorem Holds.read {data : List Byte} {image : Image} (h : image.Holds data) (n : Nat) :
    image.read n = .ok (data.take n, data.drop n) := by
  cases h with
  | bytes => rw [Image.read, List.splitAt_eq]
  | reader => rw [Image.read, List.splitAt_eq]

theorem read_limited (data : List Byte) (limit n : Nat) :
    (reader data (some limit)).read n = .ok (data.take (min limit n), data.drop (min limit n)) := by
  rw [Image.read, List.splitAt_eq, Nat.min_comm]

end Image

namespace Machine

structure Installed (m t : Machine) (program : List Byte) : Prop where
  digits : t.memory.Holds 0 Font.bytes
  code : t.memory.Holds 0x200 program
  others : ∀ a, 80 ≤ a.toNat → (a.toNat < 0x200 ∨ 0x200 + program.length ≤ a.toNat) →
    t.memory.get a = m.memory.get a
  rest : t = { m with memory := t.memory }

/-- The ways to load some bytes: out of an image that holds them, or from the path of a file. -/
inductive Loader (data : List Byte) : (Machine → Except Fault Nat × Machine) → Prop
  | image {image : Image} (h : image.Holds data) :
      Loader data fun m => ((m.load image).count, (m.load image).machine)
  | file {fs : FileSystem} {path : String} (h : fs path = .ok data) :
      Loader data fun m => m.loadFile fs path

variable {m t u : Machine} {data unread program first : List Byte} {image : Image}
  {load earlier : Machine → Except Fault Nat × Machine}

theorem place_cases (a : Address) (size : Nat) :
    a.toNat - 0 < Font.bytes.length ∨ (0x200 ≤ a.toNat ∧ a.toNat - 0x200 < size) ∨
      (80 ≤ a.toNat ∧ (a.toNat < 0x200 ∨ 0x200 + size ≤ a.toNat)) := by
  have hlength : Font.bytes.length = 80 := rfl
  omega

theorem memory_installFont (m : Machine) :
    m.installFont.memory = m.memory.write (BitVec.ofNat 12 0) Font.bytes := by
  have hbase : fontBase = BitVec.ofNat 12 0 := rfl
  rw [installFont, hbase]

theorem holds_installFont (m : Machine) : Memory.Holds m.installFont.memory 0 Font.bytes := by
  rw [memory_installFont]
  exact Memory.holds_write m.memory 0 (by decide)

theorem get_installFont (m : Machine) {a : Address} (h : 80 ≤ a.toNat) :
    m.installFont.memory.get a = m.memory.get a := by
  rw [memory_installFont]
  exact Memory.get_write_beside m.memory (by decide) (.inr h)

theorem installed_font (m : Machine) : Installed m m.installFont [] := by
  refine ⟨holds_installFont m, ?_, ?_, ?_⟩
  · intro k hk
    exact absurd hk (Nat.not_lt_zero k)
  · intro a hlow _
    exact get_installFont m hlow
  · simp only [installFont]

theorem Installed.write (h : Installed m t []) (hsize : program.length ≤ 3584) :
    Installed m { t with memory := t.memory.write programStart program } program := by
  have hfit : 0x200 + program.length ≤ 4096 := by omega
  have hstart : programStart = BitVec.ofNat 12 0x200 := rfl
  rw [hstart]
  refine ⟨?_, Memory.holds_write _ _ (by omega), ?_, ?_⟩
  · intro k hk
    have hplace : (BitVec.ofNat 12 (0 + k)).toNat < 0x200 := by
      have hlength : Font.bytes.length = 80 := rfl
      rw [BitVec.toNat_ofNat]
      omega
    exact (Memory.get_write_beside _ hfit (.inl hplace)).trans (h.digits k hk)
  · intro a hlow hout
    exact (Memory.get_write_beside _ hfit hout).trans (h.others a hlow (Nat.lt_or_ge _ _))
  · rw [h.rest]

theorem installed_load (m : Machine) (h : image.read 3584 = .ok (data, unread)) :
    Installed m (m.load image).machine data := by
  rw [load_of_read m h]
  exact (installed_font m).write (Numeric.length_read h)

theorem installed_fault (m : Machine) {fault : Fault} (h : image.read 3584 = .error fault) :
    Installed m (m.load image).machine [] := by
  rw [load_of_fault m h]
  exact installed_font m

theorem Installed.get_eq (ht : Installed m t program) (hu : Installed m u program) (a : Address) :
    t.memory.get a = u.memory.get a := by
  rcases place_cases a program.length with hfont | ⟨hle, hlt⟩ | ⟨hlow, hout⟩
  · rw [ht.digits.get_eq (Nat.zero_le _) hfont, hu.digits.get_eq (Nat.zero_le _) hfont]
  · rw [ht.code.get_eq hle hlt, hu.code.get_eq hle hlt]
  · rw [ht.others a hlow hout, hu.others a hlow hout]

theorem Installed.unique (ht : Installed m t program) (hu : Installed m u program) : t = u := by
  have hmemory : t.memory = u.memory := Bank.ext (ht.get_eq hu)
  calc
    t = { m with memory := t.memory } := ht.rest
    _ = { m with memory := u.memory } := by rw [hmemory]
    _ = u := hu.rest.symm

/-- A program at least as long as the one before it leaves nothing of that. -/
theorem Installed.over (hf : Installed m t first) (hp : Installed t u program)
    (h : first.length ≤ program.length) : Installed m u program := by
  refine ⟨hp.digits, hp.code, ?_, ?_⟩
  · intro a hlow ha
    have hout : a.toNat < 0x200 ∨ 0x200 + first.length ≤ a.toNat := by omega
    rw [hp.others a hlow ha, hf.others a hlow hout]
  · have hu := hp.rest
    rw [hf.rest] at hu
    exact hu

theorem installed_bytes (m : Machine) (data : List Byte) :
    Installed m (m.load (.bytes data)).machine (data.take 3584) :=
  installed_load m (Image.Holds.bytes.read 3584)

theorem load_of_holds (m : Machine) (h : image.Holds data) :
    m.load image =
      ⟨.ok (min data.length 3584), data.drop 3584, (m.load (.bytes data)).machine⟩ := by
  have hcount : (data.take 3584).length = min data.length 3584 := by
    rw [List.length_take, Nat.min_comm]
  rw [load_of_read m (h.read 3584), load_of_read m (Image.Holds.bytes.read 3584), hcount]

theorem Loader.loads (h : Loader data load) (m : Machine) :
    load m = (.ok (min data.length 3584), (m.load (.bytes data)).machine) := by
  cases h with
  | image himage =>
      dsimp only
      rw [load_of_holds m himage]
  | file hfile => exact CommandLine.loadFile_bytes m hfile

theorem Loader.over (h : Loader data load) (hf : Loader first earlier) (m : Machine)
    (hlength : min first.length 3584 ≤ data.length) : load (earlier m).2 = load m := by
  have hshorter : (first.take 3584).length ≤ (data.take 3584).length := by
    rw [List.length_take, List.length_take]
    omega
  have hboth := (installed_bytes m first).over (installed_bytes _ data) hshorter
  rw [hf.loads m, h.loads, h.loads, hboth.unique (installed_bytes m data)]

theorem run_load_of_holds (m : Machine) (h : image.Holds data) (listener : Option Listener)
    (heard : List Bool) :
    (Numeric.perform (.load image)).run (m.numeric listener heard) =
      .ok (some ((min data.length 3584 : Nat) : Int))
        ((m.load (.bytes data)).machine.numeric listener heard) := by
  have hrun := Numeric.run_perform ⟨m, listener, heard⟩ (.load image)
  rw [Session.perform, load_of_holds m h] at hrun
  exact hrun

theorem load_exact (m : Machine) :
    (∀ data, ∃ t,
      Installed m t (data.take 3584) ∧
      (∀ load, Loader data load → load m = (.ok (min data.length 3584), t)) ∧
      (∀ image, image.Holds data →
        (m.load image).unread = data.drop 3584 ∧
        (m.load image).unread.length = data.length - 3584) ∧
      (∀ image listener heard, image.Holds data →
        (Numeric.perform (.load image)).run (m.numeric listener heard) =
          .ok (some ((min data.length 3584 : Nat) : Int)) (t.numeric listener heard) ∧
        (t.numeric listener heard).memory.length = 4096) ∧
      (∀ load again, Loader data load → Loader data again → again (load m).2 = load m) ∧
      ∀ first earlier load, Loader first earlier → Loader data load →
        min first.length 3584 ≤ data.length → load (earlier m).2 = load m) ∧
    (∀ image fault, image.read 3584 = .error fault →
      (m.load image).count = .error fault ∧ Installed m (m.load image).machine []) ∧
    ∀ (fs : FileSystem) path fault, fs path = .error fault →
      m.loadFile fs path = (.error fault, m) := by
  refine ⟨?_, ?_, ?_⟩
  · intro data
    refine ⟨_, installed_bytes m data, fun load h => h.loads m, ?_, ?_, ?_, ?_⟩
    · intro image h
      rw [load_of_holds m h]
      exact ⟨rfl, List.length_drop⟩
    · intro image listener heard h
      exact ⟨run_load_of_holds m h listener heard, Numeric.length_integers _⟩
    · intro load again h hagain
      rw [hagain.over h m (Nat.min_le_left _ _), hagain.loads, h.loads]
    · intro first earlier load hf h hlength
      exact h.over hf m hlength
  · intro image fault h
    refine ⟨?_, installed_fault m h⟩
    rw [load_of_fault m h]
  · intro fs path fault h
    simp only [Machine.loadFile, h]

def blank : Machine := fresh 1 Source.silent

/-- A program that is one byte too long. -/
def overlong : List Byte := List.replicate 3585 7

theorem load_exact_of_overlong :
    ∃ t, (blank.loadFile (fun _ => .ok overlong) "long.ch8" = (.ok 3584, t)) ∧
      t.memory.get 0 = 0xF0 ∧ t.memory.get 0x1FF = 0 ∧ t.memory.get 0xFFF = 7 ∧
      (blank.load (.reader overlong none)).unread.length = 1 ∧
      (t.load (.bytes overlong)).machine = t ∧
      ((blank.load (.bytes [1, 2])).machine.load (.bytes overlong)).machine = t ∧
      (blank.load (.broken "gone")).count = .error (.unreadable "gone") ∧
      (blank.load (.broken "gone")).machine.memory.get 0x200 = 0 ∧
      (blank.loadFile (fun path => .error (.file .missing path)) "none.ch8").2 = blank := by
  obtain ⟨hdata, hbroken, hmissing⟩ := load_exact blank
  obtain ⟨t, hinstalled, hload, hunread, -, htwice, hover⟩ := hdata overlong
  have hlength : overlong.length = 3585 := List.length_replicate
  have hbytes : Loader overlong fun m => ((m.load (.bytes overlong)).count,
      (m.load (.bytes overlong)).machine) := .image .bytes
  have hfile : Loader overlong fun m => m.loadFile (fun _ => .ok overlong) "long.ch8" := .file rfl
  have hshort : Loader [1, 2] fun m => ((m.load (.bytes [1, 2])).count,
      (m.load (.bytes [1, 2])).machine) := .image .bytes
  have honce := hload _ hbytes
  have hwhole := hload _ hfile
  have htwo := htwice _ _ hfile hbytes
  have hboth := hover _ _ _ hshort hbytes (by
    rw [hlength]
    decide)
  have hrest := (hunread (.reader overlong none) .reader).2
  obtain ⟨hcount, hfault⟩ := hbroken (.broken "gone") (.unreadable "gone") rfl
  have hnone := hmissing (fun path => .error (.file .missing path)) "none.ch8" _ rfl
  rw [hwhole] at htwo
  rw [hlength] at hwhole hrest
  rw [honce] at hboth
  have hagain := congrArg Prod.snd htwo
  have hafter := congrArg Prod.snd hboth
  dsimp only at hagain hafter
  refine ⟨t, hwhole, hinstalled.digits 0 (by decide), ?_, ?_, hrest, hagain, hafter, hcount, ?_,
    congrArg Prod.snd hnone⟩
  · rw [hinstalled.others 0x1FF (by decide) (.inl (by decide))]
    decide +kernel
  · have hlast : 3583 < (overlong.take 3584).length := by
      rw [List.length_take, hlength]
      decide
    have hcell := hinstalled.code 3583 hlast
    rw [List.getElem_take] at hcell
    exact hcell.trans (List.getElem_replicate _)
  · rw [hfault.others 0x200 (by decide) (.inr (by decide))]
    decide +kernel

theorem load_in_pieces (m : Machine) (data : List Byte) (limit : Nat) :
    let pieces := m.load (.reader data (some limit))
    let whole := m.load (.bytes data)
    pieces.count = .ok (min limit (min data.length 3584)) ∧
      Installed m pieces.machine (data.take (min limit 3584)) ∧
      pieces.unread = data.drop (min limit 3584) ∧
      (pieces.count = whole.count ∧ pieces.machine = whole.machine ↔
        min data.length 3584 ≤ limit) := by
  intro pieces whole
  have hread := Image.read_limited data limit 3584
  have hload := load_of_read m hread
  have hinstalled := installed_load m hread
  have hlength : (data.take (min limit 3584)).length = min limit (min data.length 3584) := by
    rw [List.length_take]
    omega
  have hcount : pieces.count = .ok (min limit (min data.length 3584)) := by
    rw [← hlength]
    exact congrArg Loading.count hload
  have hwhole : whole.count = .ok (min data.length 3584) :=
    congrArg Loading.count (load_of_holds m .bytes)
  refine ⟨hcount, hinstalled, congrArg Loading.unread hload, ?_, ?_⟩
  · rintro ⟨hsame, -⟩
    rw [hcount, hwhole] at hsame
    have hmin := Except.ok.inj hsame
    omega
  · intro hle
    refine ⟨?_, ?_⟩
    · rw [hcount, hwhole, Nat.min_eq_right hle]
    · have htake : data.take (min limit 3584) = data.take 3584 := by
        rw [List.take_eq_take_iff]
        omega
      rw [htake] at hinstalled
      exact hinstalled.unique (installed_bytes m data)

theorem load_in_pieces_cut :
    let pieces := blank.load (.reader [0x60, 0x05] (some 1))
    let whole := blank.load (.bytes [0x60, 0x05])
    pieces.count = .ok 1 ∧ pieces.unread = [0x05] ∧ pieces.machine.memory.get 0x201 = 0 ∧
      whole.count = .ok 2 ∧ whole.machine.memory.get 0x201 = 0x05 := by
  intro pieces whole
  decide +kernel

end Machine

end ChipEight
