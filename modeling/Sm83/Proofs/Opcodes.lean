import Mathlib.Data.Fin.VecNotation
import Sm83.Instr

/-!
The opcode map. An opcode is a pattern with up to two fields in it, and the fields name operands,
operations, pairs and conditions by number. Main statement: `opcodeMap`, the decoder keeps to the map.
-/
namespace Sm83

namespace Fields

def operand : Fin 8 → Operand := ![.reg .b,.reg .c,.reg .d,.reg .e,.reg .h,.reg .l,.atHL,.reg .a]
def operation : Fin 8 → AluOp := ![.add,.adc,.sub,.sbc,.and,.xor,.or,.cp]
def shift : Fin 8 → ShiftOp := ![.rlc,.rrc,.rl,.rr,.sla,.sra,.swap,.srl]
def pair : Fin 4 → Reg16 := ![.bc,.de,.hl,.sp]
def stackPair : Fin 4 → Reg16 := ![.bc,.de,.hl,.af]
def pointer : Fin 4 → Pointer := ![.bc,.de,.hlUp,.hlDown]
def cond : Fin 4 → Cond := ![.nz,.z,.nc,.c]

end Fields

open Fields Instr in
structure OpcodeMap : Prop where
  alone : ∀ e ∈ [(0x00,nop),(0x08,storeSP),(0x10,stop),(0x18,jumpRel none),(0x27,daa),(0x2F,cpl),(0x37,scf),
      (0x3F,ccf),(0x76,halt),(0xC3,jump none),(0xC9,ret none),(0xCB,extended),(0xCD,call none),(0xD9,reti),
      (0xE0,storeHigh),(0xE2,storeHighC),(0xE8,addSP),(0xE9,jumpHL),(0xEA,storeAbs),(0xF0,loadHigh),
      (0xF2,loadHighC),(0xF3,di),(0xF8,loadOffset),(0xF9,loadSP),(0xFA,loadAbs),(0xFB,ei)],
    decode e.1 = some e.2
  undefined : ∀ op ∈ undefinedOpcodes, decode op = none
  load : ∀ k j : Fin 8, UInt8.ofNat (0x40 + 8 * k + j) ≠ 0x76 →
    decode (.ofNat (0x40 + 8 * k + j)) = some (load (operand k) (operand j))
  alu : ∀ k j : Fin 8, decode (.ofNat (0x80 + 8 * k + j)) = some (alu (operation k) (operand j))
  inc : ∀ k : Fin 8, decode (.ofNat (0x04 + 8 * k)) = some (inc (operand k))
  dec : ∀ k : Fin 8, decode (.ofNat (0x05 + 8 * k)) = some (dec (operand k))
  loadImm : ∀ k : Fin 8, decode (.ofNat (0x06 + 8 * k)) = some (loadImm (operand k))
  aluImm : ∀ k : Fin 8, decode (.ofNat (0xC6 + 8 * k)) = some (aluImm (operation k))
  rst : ∀ k : Fin 8, decode (.ofNat (0xC7 + 8 * k)) = some (rst (.ofNat (8 * k)))
  rotateA : ∀ k : Fin 8, k.val < 4 → decode (.ofNat (0x07 + 8 * k)) = some (rotateA (shift k))
  loadPair : ∀ p : Fin 4, decode (.ofNat (0x01 + 16 * p)) = some (loadPair (pair p))
  storeVia : ∀ p : Fin 4, decode (.ofNat (0x02 + 16 * p)) = some (storeVia (pointer p))
  incPair : ∀ p : Fin 4, decode (.ofNat (0x03 + 16 * p)) = some (incPair (pair p))
  addHL : ∀ p : Fin 4, decode (.ofNat (0x09 + 16 * p)) = some (addHL (pair p))
  loadVia : ∀ p : Fin 4, decode (.ofNat (0x0A + 16 * p)) = some (loadVia (pointer p))
  decPair : ∀ p : Fin 4, decode (.ofNat (0x0B + 16 * p)) = some (decPair (pair p))
  pop : ∀ p : Fin 4, decode (.ofNat (0xC1 + 16 * p)) = some (pop (stackPair p))
  push : ∀ p : Fin 4, decode (.ofNat (0xC5 + 16 * p)) = some (push (stackPair p))
  jumpRel : ∀ p : Fin 4, decode (.ofNat (0x20 + 8 * p)) = some (jumpRel (some (cond p)))
  ret : ∀ p : Fin 4, decode (.ofNat (0xC0 + 8 * p)) = some (ret (some (cond p)))
  jump : ∀ p : Fin 4, decode (.ofNat (0xC2 + 8 * p)) = some (jump (some (cond p)))
  call : ∀ p : Fin 4, decode (.ofNat (0xC4 + 8 * p)) = some (call (some (cond p)))
  shift : ∀ k j : Fin 8, BitInstr.decode (.ofNat (8 * k + j)) = .shift (shift k) (operand j)
  test : ∀ k j : Fin 8, BitInstr.decode (.ofNat (0x40 + 8 * k + j)) = .test k (operand j)
  reset : ∀ k j : Fin 8, BitInstr.decode (.ofNat (0x80 + 8 * k + j)) = .reset k (operand j)
  set : ∀ k j : Fin 8, BitInstr.decode (.ofNat (0xC0 + 8 * k + j)) = .set k (operand j)

theorem opcodeMap : OpcodeMap := by
  constructor <;> decide +kernel

theorem Fields.holds_cond (p : Fin 4) (f : Flags) : (cond p).holds f = ![!f.z,f.z,!f.c,f.c] p := by
  match p with
  | 0 | 1 | 2 | 3 => rfl

end Sm83
