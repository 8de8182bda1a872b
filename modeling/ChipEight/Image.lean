import ChipEight.Machine

/-!
A program image and its way into memory. The font goes in first and stays even if reading the image
then fails; an image larger than the program space is cut off.
-/

namespace ChipEight

inductive Image where
  /-- Bytes at hand, whatever holds them, with a single byte to each item. -/
  | bytes (data : List Byte)
  /-- A file of which one reading gives no more than `limit` bytes, if there is a limit. -/
  | reader (data : List Byte) (limit : Option Nat)
  | broken (message : String)

namespace Image

/-- One reading of at most `n` bytes: what it gives and what is left. -/
def read (n : Nat) : Image → Except Fault (List Byte × List Byte)
  | bytes data => .ok (data.splitAt n)
  | reader data none => .ok (data.splitAt n)
  | reader data (some limit) => .ok (data.splitAt (min n limit))
  | broken message => .error (.unreadable message)

end Image

structure Loading where
  count : Except Fault Nat
  unread : List Byte
  machine : Machine

namespace Machine

def installFont (m : Machine) : Machine :=
  { m with memory := m.memory.write fontBase Font.bytes }

def load (m : Machine) (image : Image) : Loading :=
  let ready := m.installFont
  match image.read programMax with
  | .error fault => ⟨.error fault, [], ready⟩
  | .ok (data, unread) =>
      ⟨.ok data.length, unread, { ready with memory := ready.memory.write programStart data }⟩

end Machine

end ChipEight
