import ChipEight.CommandLine

/-!
The command: reads the program image from disk, runs and prints. There is no window here, so only
headless runs get beyond opening one.
-/

namespace ChipEight.CommandLine

def faultOfError (path : String) : IO.Error → Fault
  | .noFileOrDirectory _ _ _ => .file .missing path
  | .inappropriateType _ _ "not a directory" => .file .notDirectory path
  | .inappropriateType _ _ _ => .file .directory path
  | .invalidArgument _ _ "name too long" => .file .nameTooLong path
  | e => .unreadable (toString e)

def readFile (path : String) : IO (Except Fault (List Byte)) := do
  if '\x00' ∈ path.toList then return .error .nulInPath
  try
    let data ← IO.FS.readBinFile path
    return .ok (data.toList.map UInt8.toBitVec)
  catch e => return .error (faultOfError path e)

def perform (arguments : List String) : IO UInt32 := do
  let contents ← match Options.ofArguments arguments with
    | .ok o => readFile o.rom
    | .error _ => pure (.ok [])
  let source := Source.ofSeed (← IO.rand 0 0x3fffffffffffffff)
  match run arguments (fun _ => contents) Host.bare source 0 with
  | none => return 1
  | some outcome =>
      IO.print outcome.output
      IO.eprint outcome.errors
      match outcome.exit with
      | .returned status => return status.toUInt32
      | .exited code => return code.toUInt32
      | .raised fault => do
          IO.eprintln fault.message
          return 1

end ChipEight.CommandLine

def main (arguments : List String) : IO UInt32 := ChipEight.CommandLine.perform arguments
