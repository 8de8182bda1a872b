import ChipEight.Word
import ChipEight.Bank
import ChipEight.Screen
import ChipEight.Font
import ChipEight.Keypad
import ChipEight.CallStack
import ChipEight.Random.Twister
import ChipEight.Random.Source
import ChipEight.Instruction
import ChipEight.Text.Hexadecimal
import ChipEight.Text.Printable
import ChipEight.Text.Quoted
import ChipEight.Text.Digit
import ChipEight.Text.Numeral
import ChipEight.Rounding
import ChipEight.Text.Size
import ChipEight.Fault
import ChipEight.Limits
import ChipEight.Machine
import ChipEight.Machine.Execute
import ChipEight.Machine.Step
import ChipEight.Image
import ChipEight.Files
import ChipEight.Session
import ChipEight.Picture
import ChipEight.Wave
import ChipEight.Keymap
import ChipEight.Host
import ChipEight.Beeper
import ChipEight.Window
import ChipEight.Recorder
import ChipEight.Display
import ChipEight.Period
import ChipEight.Console
import ChipEight.Arguments.Flag
import ChipEight.Arguments.Token
import ChipEight.Arguments.Options
import ChipEight.CommandLine
import ChipEight.Main
import ChipEight.Proofs.Decoding
import ChipEight.Proofs.CallHistory
import ChipEight.Proofs.RunLength
import ChipEight.Proofs.Numeric.Program
import ChipEight.Proofs.Numeric.Places
import ChipEight.Proofs.Numeric.Drawing
import ChipEight.Proofs.Numeric.Commands
import ChipEight.Proofs.Numeric.WellFormed
import ChipEight.Proofs.Ticks
import ChipEight.Proofs.AddressWidth
import ChipEight.Proofs.SoundIsolation
import ChipEight.Proofs.BeeperHistory
import ChipEight.Proofs.HostLog
import ChipEight.Proofs.WindowClosing
import ChipEight.Proofs.TimerCadence
import ChipEight.Proofs.ToneLength
import ChipEight.Proofs.KeyReleases
import ChipEight.Proofs.Muffling
import ChipEight.Proofs.RunSplitting
import ChipEight.Proofs.ConsoleHistory
import ChipEight.Proofs.FrameSchedule
import ChipEight.Proofs.FrontEnds
import ChipEight.Proofs.HeadlessRun
import ChipEight.Proofs.WindowState
import ChipEight.Proofs.RunEnding
import ChipEight.Proofs.KeyTiming
import ChipEight.Proofs.BeeperMaking
import ChipEight.Proofs.DeafHost
import ChipEight.Proofs.AudioIsolation
import ChipEight.Proofs.DrawnCells
import ChipEight.Proofs.DrawingOrder
import ChipEight.Proofs.Footprints
import ChipEight.Proofs.TimerRate
import ChipEight.Proofs.CarryArithmetic
import ChipEight.Proofs.Transfers
import ChipEight.Proofs.Loading
import ChipEight.Proofs.InjectedKeys
import ChipEight.Proofs.WindowPolls
import ChipEight.Proofs.BeeperCalls
import ChipEight.Proofs.RandomDraws
import ChipEight.Proofs.MemoryWrites
import ChipEight.Proofs.WordFields
import ChipEight.Proofs.Renderings
