import VideoComputer.Console.AddressMap
import VideoComputer.Console.Basic
import VideoComputer.Console.Run
import VideoComputer.Console.Timing
import VideoComputer.Instruction.AddressingMode
import VideoComputer.Instruction.Operation
import VideoComputer.Instruction.Table
import VideoComputer.Machine.Basic
import VideoComputer.Machine.Execute
import VideoComputer.Machine.Failure
import VideoComputer.Machine.Operand
import VideoComputer.Machine.Step
import VideoComputer.Memory.Bus
import VideoComputer.Memory.Cartridge
import VideoComputer.Memory.Flat
import VideoComputer.Memory.RegisterBank
import VideoComputer.Memory.Word
import VideoComputer.Picture.Frame
import VideoComputer.Picture.Palette
import VideoComputer.Picture.Scanline
import VideoComputer.Processor.Arithmetic
import VideoComputer.Processor.Basic
import VideoComputer.Processor.Flags
import VideoComputer.Proofs.Machine.Run
import VideoComputer.Proofs.Machine.Addressing
import VideoComputer.Proofs.Memory.Mirrors
import VideoComputer.RangeError
import VideoComputer.Text.Hex
import VideoComputer.Text.Quoted
import VideoComputer.Text.Shapeless
import VideoComputer.Trace.Event
import VideoComputer.Trace.Record
import VideoComputer.Proofs.Console.Sweep
import VideoComputer.Proofs.Machine.Dispatch
import VideoComputer.Proofs.Machine.Footprint
import VideoComputer.Proofs.Machine.Effects
import VideoComputer.Proofs.Machine.Duration
import VideoComputer.Proofs.Machine.Course
import VideoComputer.Proofs.Machine.Calls
import VideoComputer.Proofs.Console.Calls
import VideoComputer.Proofs.Console.Grouping
import VideoComputer.Proofs.Machine.Halt
import VideoComputer.Proofs.Console.Halt
import VideoComputer.Proofs.Picture.Checks
import VideoComputer.Proofs.Console.Checks
import VideoComputer.Proofs.Console.StoreProgram
import VideoComputer.Proofs.Machine.Twins
import VideoComputer.Proofs.Machine.Journal
import VideoComputer.Proofs.Machine.Tracing
import VideoComputer.Proofs.Console.Restart
import VideoComputer.Proofs.Machine.Stack
import VideoComputer.Proofs.Console.Hooks
import VideoComputer.Proofs.Machine.OperandNumbers
import VideoComputer.Proofs.Machine.UnreadFlags
import VideoComputer.Proofs.Processor.Numbers
import VideoComputer.Proofs.Machine.CarryChains
import VideoComputer.Proofs.Machine.BinaryArithmetic
import VideoComputer.Proofs.Machine.DecimalArithmetic
import VideoComputer.Proofs.Machine.StackInstructions
import VideoComputer.Proofs.Machine.NextInstruction
import VideoComputer.Proofs.Machine.SaveRestore
import VideoComputer.Proofs.Machine.Budget
import VideoComputer.Proofs.Console.Failures
import VideoComputer.Proofs.Picture.Raster
import VideoComputer.Proofs.Console.Position
import VideoComputer.Proofs.Console.FrameSteps
import VideoComputer.Proofs.Console.CycleSums
import VideoComputer.Proofs.Machine.Past
import VideoComputer.Proofs.Console.LoadedImage
import VideoComputer.Proofs.Processor.Shifts
import VideoComputer.Proofs.Machine.ShiftChains
import VideoComputer.Proofs.Trace.Columns
import VideoComputer.Proofs.Picture.Colours
import VideoComputer.Proofs.Machine.BreakMark
