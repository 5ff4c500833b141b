import Sm83.Cpu
import Sm83.Bus

/-!
The steps of which instructions are made. Each access to the bus and each internal step costs four
clocks; registers are free.
-/
namespace Sm83.Exec
variable {σ : Type}

@[inline] def update (f : Cpu → Cpu) : Exec σ Unit := modify fun m => {m with cpu := f m.cpu}

@[inline] def updateRegs (f : Registers → Registers) : Exec σ Unit :=
  update fun c => {c with regs := f c.regs}

@[inline] def regs : Exec σ Registers := return (← get).cpu.regs

/-- A step inside the processor, without an access. -/
@[inline] def idle : Exec σ Unit := update Cpu.charge

variable [Bus σ]

@[inline] def read (a : UInt16) : Exec σ UInt8 := fun m =>
  let (v,bus) := Bus.read m.bus a
  (v,{cpu := m.cpu.charge, bus := bus})

@[inline] def write (a : UInt16) (v : UInt8) : Exec σ Unit := fun m =>
  ((),{cpu := m.cpu.charge, bus := Bus.write m.bus a v})

@[inline] def interruptWaits : Exec σ Bool := return (Bus.interrupts (← get).bus).any

@[inline] def fetch : Exec σ UInt8 := do
  let v ← read (← regs).pc
  updateRegs fun r => {r with pc := r.pc + 1}
  return v

def fetchWord : Exec σ UInt16 := do
  let lo ← fetch
  let hi ← fetch
  return word hi lo

@[inline] def readOperand : Operand → Exec σ UInt8
  | .reg r => return (← regs).get8 r
  | .atHL => do read (← regs).hl

@[inline] def writeOperand (o : Operand) (v : UInt8) : Exec σ Unit :=
  match o with
  | .reg r => updateRegs fun x => x.set8 v r
  | .atHL => do write (← regs).hl v

/-- High byte at SP-1, then low byte at SP-2. -/
def push (w : UInt16) : Exec σ Unit := do
  updateRegs fun r => {r with sp := r.sp - 1}
  write (← regs).sp (highByte w)
  updateRegs fun r => {r with sp := r.sp - 1}
  write (← regs).sp (lowByte w)

def pop : Exec σ UInt16 := do
  let lo ← read (← regs).sp
  updateRegs fun r => {r with sp := r.sp + 1}
  let hi ← read (← regs).sp
  updateRegs fun r => {r with sp := r.sp + 1}
  return word hi lo

@[inline] def jumpTo (a : UInt16) : Exec σ Unit := updateRegs fun r => {r with pc := a}

end Sm83.Exec
