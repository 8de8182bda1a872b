import ChipEight.Random.Twister

/-!
A source of random bytes is an endless stream read from a position on, or a seeded twister. Equal
streams at equal positions give equal draws; `Source.drawn` is the list of the next draws.
-/

namespace ChipEight

inductive Source where
  | stream (bytes : Nat → Byte) (position : Nat)
  | twister (state : Twister)

namespace Source

def silent : Source := .stream (fun _ => 0) 0

/-- The bytes of a list in turn, starting over at its end. -/
def cycle (bytes : List Byte) : Source :=
  let table := bytes.toArray
  .stream (fun k => table[k % table.size]?.getD 0) 0

def ofSeed (seed : Int) : Source := .twister (Twister.ofSeed seed)

/-- Far more outputs than a run of outputs that name no byte can have. -/
def patience : Nat := 624 * 32

def next : Source → Byte × Source
  | .stream bytes position => (bytes position, .stream bytes (position + 1))
  | .twister state =>
      let (b, state) := state.byte patience
      (b, .twister state)

def drawn : Nat → Source → List Byte
  | 0, _ => []
  | n + 1, s => s.next.1 :: drawn n s.next.2

end Source

end ChipEight
