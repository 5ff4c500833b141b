import Sm83.Cpu.Access

/-!
What each instruction does, from the byte after its opcode on. No instruction fails.
-/
namespace Sm83.Exec
variable {σ : Type} [Bus σ]

/-- The address of an indirect access of the accumulator. HL moves before the access is made. -/
def point (p : Pointer) : Exec σ UInt16 := do
  let r ← regs
  match p with
  | .bc => return r.bc
  | .de => return r.de
  | .hlUp => updateRegs fun r => r.setHL (r.hl + 1); return r.hl
  | .hlDown => updateRegs fun r => r.setHL (r.hl - 1); return r.hl

def highPage (lo : UInt8) : UInt16 := word 0xFF lo

def setA (v : UInt8) : Exec σ Unit := updateRegs fun r => {r with a := v}

def taken (cond : Option Cond) : Exec σ Bool := do
  let r ← regs
  return cond.all fun x => x.holds r.flags

def callTo (a : UInt16) : Exec σ Unit := do
  idle
  push (← regs).pc
  jumpTo a

def returnBack : Exec σ Unit := do
  let a ← pop
  idle
  jumpTo a

@[specialize] def executeBit : BitInstr → Exec σ Unit
  | .shift op o => do
    let v ← readOperand o
    let (v,flags) := Alu.shift op (← regs).flags .ofResult v
    updateRegs fun r => {r with flags := flags}
    writeOperand o v
  | .test bit o => do
    let v ← readOperand o
    updateRegs fun r => {r with flags := Alu.testBit r.flags bit v}
  | .reset bit o => do writeOperand o (Alu.resetBit bit (← readOperand o))
  | .set bit o => do writeOperand o (Alu.setBit bit (← readOperand o))

@[specialize] def execute : Instr → Exec σ Unit
  | .nop => return
  | .halt => do
    let waits ← interruptWaits
    update fun c => if !c.ime && waits then {c with haltBug := true} else {c with halted := true}
  | .stop => do
    let _ ← fetch
    update fun c => {c with halted := true}
  | .di => update fun c => {c with ime := false, eiDelay := false}
  | .ei => update fun c => {c with ime := true, eiDelay := c.eiDelay || !c.ime}
  | .load dst src => do writeOperand dst (← readOperand src)
  | .loadImm dst => do writeOperand dst (← fetch)
  | .loadPair dst => do
    let w ← fetchWord
    updateRegs fun r => r.set16 w dst
  | .storeVia p => do
    let a ← point p
    write a (← regs).a
  | .loadVia p => do
    let a ← point p
    setA (← read a)
  | .storeHigh => do
    let lo ← fetch
    write (highPage lo) (← regs).a
  | .loadHigh => do
    let lo ← fetch
    setA (← read (highPage lo))
  | .storeHighC => do
    let r ← regs
    write (highPage r.c) r.a
  | .loadHighC => do
    let r ← regs
    setA (← read (highPage r.c))
  | .storeAbs => do
    let a ← fetchWord
    write a (← regs).a
  | .loadAbs => do
    let a ← fetchWord
    setA (← read a)
  | .storeSP => do
    let a ← fetchWord
    let r ← regs
    write a (lowByte r.sp)
    write (a + 1) (highByte r.sp)
  | .loadSP => do
    idle
    updateRegs fun r => {r with sp := r.hl}
  | .loadOffset => do
    let e ← fetch
    idle
    updateRegs fun r =>
      let (w,flags) := Alu.addSigned r.sp e
      {r with flags := flags}.setHL w
  | .push p => do
    let w := (← regs).get16 p
    idle
    push w
  | .pop p => do
    let w ← pop
    updateRegs fun r => r.set16 w p
  | .alu op src => do
    let v ← readOperand src
    updateRegs fun r => r.accumulate op v
  | .aluImm op => do
    let v ← fetch
    updateRegs fun r => r.accumulate op v
  | .inc dst => do
    let v ← readOperand dst
    let (v,flags) := Alu.inc (← regs).flags v
    updateRegs fun r => {r with flags := flags}
    writeOperand dst v
  | .dec dst => do
    let v ← readOperand dst
    let (v,flags) := Alu.dec (← regs).flags v
    updateRegs fun r => {r with flags := flags}
    writeOperand dst v
  | .incPair p => do
    idle
    updateRegs fun r => r.set16 (r.get16 p + 1) p
  | .decPair p => do
    idle
    updateRegs fun r => r.set16 (r.get16 p - 1) p
  | .addHL p => do
    idle
    updateRegs fun r => r.addHL (r.get16 p)
  | .addSP => do
    let e ← fetch
    idle
    idle
    updateRegs fun r =>
      let (w,flags) := Alu.addSigned r.sp e
      {r with flags := flags, sp := w}
  | .rotateA op => updateRegs fun r => r.rotateA op
  | .daa => updateRegs Registers.decimalAdjust
  | .cpl => updateRegs Registers.complement
  | .scf => updateRegs fun r => r.putCarry true
  | .ccf => updateRegs fun r => r.putCarry !r.flags.c
  | .jump cond => do
    let a ← fetchWord
    if ← taken cond then
      idle
      jumpTo a
  | .jumpHL => updateRegs fun r => {r with pc := r.hl}
  | .jumpRel cond => do
    let e ← fetch
    if ← taken cond then
      idle
      updateRegs fun r => {r with pc := r.pc + signExtend e}
  | .call cond => do
    let a ← fetchWord
    if ← taken cond then callTo a
  | .rst target => callTo target.toUInt16
  | .ret none => returnBack
  | .ret (some cond) => do
    idle
    if cond.holds (← regs).flags then returnBack
  | .reti => do
    returnBack
    update fun c => {c with ime := true}
  | .extended => do executeBit (.decode (← fetch))

end Sm83.Exec
