import Sm83.Bus.Blocked
import Sm83.Bus.Recorded
import Sm83.Bus.Scripted
import Sm83.Cpu.Text
import Sm83.Main
import Sm83.Proofs.Arithmetic.Decimal
import Sm83.Proofs.Arithmetic.Shift
import Sm83.Proofs.Arithmetic.Words
import Sm83.Proofs.Execution.RoundTrips
import Sm83.Proofs.Execution.SwallowedAdvance
import Sm83.Proofs.Interrupts.Coherence
import Sm83.Proofs.Microstep.BoundedStack
import Sm83.Proofs.Run.Commuting
import Sm83.Proofs.Run.InstructionStream
import Sm83.Proofs.Run.Reset
import Sm83.Proofs.Run.Speed
import Sm83.Proofs.Runner.Arguments
