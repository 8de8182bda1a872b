/-!
The options of the command line, in the order in which they are declared, and the help text.
-/

namespace ChipEight

inductive Flag where
  | help
  | scale
  | speed
  | fps
  | seed
  | headless
  | cycles
  | mute
  deriving DecidableEq, Repr

namespace Flag

def declared : List Flag := [help, scale, speed, fps, seed, headless, cycles, mute]

def name : Flag → String
  | help => "--help"
  | scale => "--scale"
  | speed => "--speed"
  | fps => "--fps"
  | seed => "--seed"
  | headless => "--headless"
  | cycles => "--cycles"
  | mute => "--mute"

def title : Flag → String
  | help => "-h/--help"
  | f => f.name

def takesValue : Flag → Bool
  | scale | speed | fps | seed | cycles => true
  | help | headless | mute => false

def ofName? (s : String) : Option Flag :=
  if s = "-h" then some help else declared.find? fun f => f.name == s

def beginning (start : String) : List Flag := declared.filter fun f => start.isPrefixOf f.name

end Flag

namespace Usage

def synopsis : String :=
  "usage: chip8 [-h] [--scale N] [--speed HZ] [--fps FPS] [--seed SEED]\n" ++
  "             [--headless] [--cycles N] [--mute]\n" ++
  "             rom\n"

def help : String :=
  synopsis ++ "\n" ++
  "CHIP-8 interpreter\n\n" ++
  "positional arguments:\n" ++
  "  rom          Path to the ROM image\n\n" ++
  "options:\n" ++
  "  -h, --help   show this help message and exit\n" ++
  "  --scale N    Pixel scale factor for the window (default: 15)\n" ++
  "  --speed HZ   Instructions per second (default: 850)\n" ++
  "  --fps FPS    Display refresh rate (default: 60)\n" ++
  "  --seed SEED  Seed for the RND instruction\n" ++
  "  --headless   Run without a window and print the final display as text\n" ++
  "  --cycles N   Stop after N instructions (headless default: 10000)\n" ++
  "  --mute       Disable the beeper\n\n" ++
  "Examples:\n" ++
  "  python cli.py pong.ch8\n" ++
  "  python cli.py pong.ch8 --scale 10 --speed 1000\n" ++
  "  python cli.py ibm_logo.ch8 --headless --cycles 200\n"

end Usage

end ChipEight
