import ChipEight.Word

/-!
The Mersenne twister with 624 words of 32 bits, seeded from a list of words.
-/

namespace ChipEight

structure Twister where
  words : Vector UInt32 624
  position : Nat

namespace Twister

def grow (seed : UInt32) : Vector UInt32 624 :=
  ((List.finRange 623).foldl
    (fun (grown : Vector UInt32 624 × UInt32) (k : Fin 623) =>
      let word := (1812433253 : UInt32) * (grown.2 ^^^ (grown.2 >>> 30)) + (k.val + 1).toUInt32
      (grown.1.set (k.val + 1) word, word))
    (Vector.replicate 624 seed, seed)).1

/-- One stirring step: the word at `i` takes in its predecessor; past the end, the last word comes
round to the front. -/
def stir (absorb : UInt32 → UInt32 → UInt32) (s : Vector UInt32 624 × Fin 624) :
    Vector UInt32 624 × Fin 624 :=
  let previous := s.1[s.2 - 1]
  let words := s.1.set s.2 (absorb s.1[s.2] (previous ^^^ (previous >>> 30)))
  if s.2 = 623 then (words.set 0 words[623], 1) else (words, s.2 + 1)

/-- Seeds from the words of a key; a key without words counts as the one word 0. -/
def ofKey (key : List UInt32) : Twister :=
  let key := if key.isEmpty then [0] else key
  let rounds := max 624 key.length
  let indexed := (key.zipIdx).map fun (word, j) => word + j.toUInt32
  let terms := ((List.replicate (rounds / key.length + 1) indexed).flatten).take rounds
  let first := terms.foldl (fun s term => stir (fun w p => (w ^^^ (p * 1664525)) + term) s)
    (grow 19650218, 1)
  let second := (List.range 623).foldl
    (fun s _ => stir (fun w p => (w ^^^ (p * 1566083941)) - s.2.val.toUInt32) s) first
  ⟨second.1.set 0 0x80000000, 624⟩

/-- The 32-bit words of a number, least significant first. -/
def keyOfNat (n : Nat) : List UInt32 :=
  if n < 0x100000000 then [n.toUInt32] else n.toUInt32 :: keyOfNat (n / 0x100000000)
termination_by n

def ofSeed (seed : Int) : Twister := ofKey (keyOfNat seed.natAbs)

/-- The next 624 words, each from its neighbour and the word 397 places on. -/
def refresh (words : Vector UInt32 624) : Vector UInt32 624 :=
  (List.finRange 624).foldl
    (fun (s : Vector UInt32 624) (k : Fin 624) =>
      let y : UInt32 := (s[k] &&& 0x80000000) ||| (s[k + 1] &&& 0x7fffffff)
      let twist : UInt32 := if y &&& 1 = 0 then 0 else 0x9908b0df
      s.set k (s[k + 397] ^^^ (y >>> 1) ^^^ twist))
    words

def temper (y : UInt32) : UInt32 :=
  let y := y ^^^ (y >>> 11)
  let y := y ^^^ ((y <<< 7) &&& 0x9d2c5680)
  let y := y ^^^ ((y <<< 15) &&& 0xefc60000)
  y ^^^ (y >>> 18)

def next (t : Twister) : UInt32 × Twister :=
  if h : t.position < 624 then
    (temper t.words[t.position], ⟨t.words, t.position + 1⟩)
  else
    let words := refresh t.words
    (temper words[0], ⟨words, 1⟩)

/-- A byte is the top nine bits of an output; an output that names no byte is passed over. -/
def byte : Nat → Twister → Byte × Twister
  | 0, t => (0, t)
  | patience + 1, t =>
      let (output, t) := t.next
      let top := (output >>> 23).toNat
      if top < 256 then (BitVec.ofNat 8 top, t) else byte patience t

end Twister

end ChipEight
