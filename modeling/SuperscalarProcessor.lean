import SuperscalarProcessor.Foundation.StepRuns
import SuperscalarProcessor.Foundation.HaltingRuns
import SuperscalarProcessor.Foundation.Segments
import SuperscalarProcessor.Foundation.Adjacent
import SuperscalarProcessor.Foundation.Copy
import SuperscalarProcessor.Foundation.BitField
import SuperscalarProcessor.Foundation.Numerals
import SuperscalarProcessor.Foundation.DigitRoot
import SuperscalarProcessor.Foundation.SmallWords
import SuperscalarProcessor.Llsim.BitFields
import SuperscalarProcessor.Llsim.SignedFields
import SuperscalarProcessor.Llsim.Memory
import SuperscalarProcessor.Llsim.FieldAccess
import SuperscalarProcessor.Isa
import SuperscalarProcessor.Pipeline.Stages
import SuperscalarProcessor.Pipeline.Clock
import SuperscalarProcessor.Pipeline.Step
import SuperscalarProcessor.Pipeline.FrontEnd
import SuperscalarProcessor.Pipeline.Runs
import SuperscalarProcessor.Pipeline.Retirement
import SuperscalarProcessor.Pipeline.Operands
import SuperscalarProcessor.Pipeline.Forwarding
import SuperscalarProcessor.Pipeline.Halting
import SuperscalarProcessor.Pipeline.Sequential
import SuperscalarProcessor.Pipeline.Bypass
import SuperscalarProcessor.Pipeline.SpeculativeFetch
import SuperscalarProcessor.Pipeline.Trace
import SuperscalarProcessor.Pipeline.TracedRuns
import SuperscalarProcessor.Pipeline.Completion
import SuperscalarProcessor.Pipeline.Footprint
import SuperscalarProcessor.Pipeline.StaleReads
import SuperscalarProcessor.Pipeline.StaticHazards
import SuperscalarProcessor.Pipeline.TraceFile
import SuperscalarProcessor.Pipeline.Noninterference
import SuperscalarProcessor.Pipeline.Loads
import SuperscalarProcessor.MultiCycle.Machine
import SuperscalarProcessor.MultiCycle.Step
import SuperscalarProcessor.MultiCycle.Instruction
import SuperscalarProcessor.Iss
import SuperscalarProcessor.MultiCycle.Simulation
import SuperscalarProcessor.MultiCycle.Transfers
import SuperscalarProcessor.Comparison
import SuperscalarProcessor.Bounds
import SuperscalarProcessor.MultiCycle.Architecture
import SuperscalarProcessor.MultiCycle.Dma
import SuperscalarProcessor.MultiCycle.DmaEngine
import SuperscalarProcessor.MultiCycle.RegisterIndices
import SuperscalarProcessor.MultiCycle.AbsentRegisters
import SuperscalarProcessor.Programs.Machine
import SuperscalarProcessor.Programs.Addition
import SuperscalarProcessor.Programs.SquareRoot
import SuperscalarProcessor.Programs.Versions
import SuperscalarProcessor.ProgramRuns
import SuperscalarProcessor.TraceFiles
import SuperscalarProcessor.Programs.Resident
import SuperscalarProcessor.Programs.OnPipeline
import SuperscalarProcessor.Programs.PrefixSums
import SuperscalarProcessor.Programs.SquareRootImage
import SuperscalarProcessor.Programs.Followed
import SuperscalarProcessor.Programs.AdditionImage
import SuperscalarProcessor.Encoding
import SuperscalarProcessor.Stdio
import SuperscalarProcessor.MemoryImage
import SuperscalarProcessor.ProgramFiles
