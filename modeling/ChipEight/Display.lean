import ChipEight.Recorder
import ChipEight.Window

/-! The front end of a console: a window or a recorder. -/

namespace ChipEight

inductive Display where
  | window (w : Window)
  | recorder (r : Recorder)
  deriving DecidableEq

structure Poll where
  result : Except Fault Bool
  display : Display
  host : Host
  keypad : Keypad

namespace Display

def poll (d : Display) (h : Host) (k : Keypad) : Poll :=
  match d with
  | window w =>
      let (result, h, k) := w.poll h k
      ⟨result, window w, h, k⟩
  | recorder r =>
      let (result, r, k) := r.poll k
      ⟨result, recorder r, h, k⟩

def render (d : Display) (s : Screen) (h : Host) : Display × Host :=
  match d with
  | window w => (window w, w.render s h)
  | recorder r => (recorder (r.render s), h)

def start (d : Display) (h : Host) : Except Fault Unit × Display × Host :=
  match d with
  | window w =>
      let (result, w, h) := w.start h
      (result, window w, h)
  | recorder r => (.ok (), recorder r, h)

def stop (d : Display) (h : Host) : Display × Host :=
  match d with
  | window w =>
      let (w, h) := w.stop h
      (window w, h)
  | recorder r => (recorder r, h)

end Display

end ChipEight
