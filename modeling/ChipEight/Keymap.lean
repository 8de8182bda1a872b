import ChipEight.Fault
import ChipEight.Word

/-!
Which key of the keypad a host key stands for. The left-hand block of the host's keyboard lies as
the keypad does. Where two names share a code, the later name in the layout's order counts.
-/

namespace ChipEight

abbrev Keymap := List (Int × Nibble)

namespace Keymap

def layout : List (String × Nibble) :=
  [("K_1", 0x1), ("K_2", 0x2), ("K_3", 0x3), ("K_4", 0xC),
   ("K_q", 0x4), ("K_w", 0x5), ("K_e", 0x6), ("K_r", 0xD),
   ("K_a", 0x7), ("K_s", 0x8), ("K_d", 0x9), ("K_f", 0xE),
   ("K_z", 0xA), ("K_x", 0x0), ("K_c", 0xB), ("K_v", 0xF)]

def key? (m : Keymap) (code : Int) : Option Nibble := m.lookup code

def assign (m : Keymap) (code : Int) (key : Nibble) : Keymap :=
  (code, key) :: m.filter fun entry => entry.1 != code

def ofCodes (code? : String → Option Int) : Except Fault Keymap :=
  layout.foldlM (fun (m : Keymap) entry =>
    match code? entry.1 with
    | some code => .ok (m.assign code entry.2)
    | none => .error (.keyNameMissing entry.1)) []

/-- The map on a host whose key codes are the characters on the keys. -/
def standard : Keymap :=
  layout.reverse.map fun entry => (((entry.1.toList.getLast?.getD '?').toNat : Int), entry.2)

end Keymap

end ChipEight
