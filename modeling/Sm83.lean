import Sm83.Main
import Sm83.TestCase.File
import Sm83.TestCase.Replay
import Sm83.Text.Utf8
import Sm83.Proofs.Cpu.Encoding
import Sm83.Proofs.System.Latch
import Sm83.Proofs.System.Dispatch
import Sm83.Proofs.System.Reload
import Sm83.Proofs.System.Bare
import Sm83.Proofs.System.Overdraft
import Sm83.Proofs.TestCase.Coherence
import Sm83.Proofs.System.Requests
import Sm83.Proofs.System.Service
import Sm83.Proofs.Cpu.Switches
import Sm83.Proofs.Cpu.Refusal
import Sm83.Proofs.System.Serial
import Sm83.Proofs.Runner
import Sm83.Proofs.Cpu.Registers
import Sm83.Proofs.Settings.Address
import Sm83.Proofs.TestCase.File
import Sm83.Proofs.Timer.Counting
import Sm83.Proofs.Timer.Delay
import Sm83.Proofs.Cpu.HaltBug
import Sm83.Proofs.Cpu.Waking
import Sm83.Proofs.System.Sleep
import Sm83.Proofs.System.Budget
import Sm83.Proofs.System.Readback
import Sm83.Proofs.Cpu.Arithmetic
import Sm83.Proofs.Alu.Decimal
import Sm83.Proofs.Alu.Shift
import Sm83.Proofs.Cpu.Offset
import Sm83.Proofs.Cpu.Outcome
import Sm83.Proofs.Cpu.Bits
import Sm83.Proofs.Cpu.Loads
import Sm83.Proofs.Cpu.Stack
import Sm83.Proofs.Cpu.Branches
