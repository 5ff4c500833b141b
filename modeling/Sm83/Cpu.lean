import Sm83.Instr.Mnemonic

/-!
The processor's own state, apart from the bus it works on, and why it gives up.
-/
namespace Sm83
open Text

inductive Fault
  | illegal (opcode : UInt8) (pc : UInt16)
  /-- The opcode has a meaning that an implementation leaves out. -/
  | unimplemented (opcode : Opcode) (pc : UInt16)
deriving DecidableEq

namespace Fault

/-- The address of the first byte of the instruction. -/
def pc : Fault → UInt16
  | illegal _ pc | unimplemented _ pc => pc

def message : Fault → String
  | illegal op pc => s!"illegal opcode 0x{upperHex 2 op.toNat} at 0x{upperHex 4 pc.toNat}"
  | unimplemented op pc => s!"unimplemented opcode {op.text} at 0x{upperHex 4 pc.toNat}"

end Fault

structure Cpu where
  regs : Registers := {}
  ime : Bool := false
  halted : Bool := false
  /-- The last instruction was the `EI` that set `ime`; the next one runs undisturbed. -/
  eiDelay : Bool := false
  /-- The next opcode fetch leaves PC in place. -/
  haltBug : Bool := false
  /-- The clocks of the latest step or dispatch. -/
  cycles : Nat := 0
  /-- The clocks since power-on. -/
  total : Nat := 0
  /-- Once set, every step fails with it. -/
  fault : Option Fault := none
deriving DecidableEq, Inhabited

namespace Cpu

def powerOn : Cpu := {}

def postBoot : Cpu := {regs := .postBoot}

def acceptsInterrupts (c : Cpu) : Bool := c.ime && !c.eiDelay

def wake (c : Cpu) : Cpu := {c with halted := false}

/-- One access or internal step lasts four clocks. -/
def charge (c : Cpu) : Cpu := {c with cycles := c.cycles + 4, total := c.total + 4}

end Cpu

structure Machine (σ : Type) where
  cpu : Cpu := {}
  bus : σ

abbrev Exec (σ : Type) := StateM (Machine σ)

end Sm83
