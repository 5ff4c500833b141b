import Sm83.Alu

/-!
The instruction set and its one-byte encoding. The tables have an entry for every byte, one for bytes that
mean nothing and one for bytes that have been left out. Main statements: `entry_eq`, no byte has been left
out, and `opcodeLength_eq`, the table of lengths agrees with the decoder.
-/
namespace Sm83

inductive Operand
  | reg (r : Reg8)
  | atHL
deriving DecidableEq

def Operand.ofIndex : Fin 8 → Operand
  | 0 => .reg .b | 1 => .reg .c | 2 => .reg .d | 3 => .reg .e
  | 4 => .reg .h | 5 => .reg .l | 6 => .atHL | 7 => .reg .a

def Reg16.ofIndex : Fin 4 → Reg16
  | 0 => .bc | 1 => .de | 2 => .hl | 3 => .sp

def Reg16.ofStackIndex : Fin 4 → Reg16
  | 0 => .bc | 1 => .de | 2 => .hl | 3 => .af

/-- The accumulator's indirect addresses. HL moves by one after its use. -/
inductive Pointer
  | bc | de | hlUp | hlDown
deriving DecidableEq

def Pointer.ofIndex : Fin 4 → Pointer
  | 0 => .bc | 1 => .de | 2 => .hlUp | 3 => .hlDown

inductive Cond
  | nz | z | nc | c
deriving DecidableEq

def Cond.ofIndex : Fin 4 → Cond
  | 0 => .nz | 1 => .z | 2 => .nc | 3 => .c

def Cond.holds (f : Flags) : Cond → Bool
  | .nz => !f.z | .z => f.z | .nc => !f.c | .c => f.c

/-- What one opcode asks for. Operands that follow in memory are left out; a jump, call or return
without a condition is always taken. -/
inductive Instr
  | nop | halt | stop | di | ei
  | load (dst src : Operand)
  | loadImm (dst : Operand)
  | loadPair (dst : Reg16)
  | storeVia (p : Pointer) | loadVia (p : Pointer)
  | storeHigh | loadHigh
  | storeHighC | loadHighC
  | storeAbs | loadAbs
  | storeSP | loadSP | loadOffset
  | push (p : Reg16) | pop (p : Reg16)
  | alu (op : AluOp) (src : Operand)
  | aluImm (op : AluOp)
  | inc (dst : Operand) | dec (dst : Operand)
  | incPair (p : Reg16) | decPair (p : Reg16)
  | addHL (p : Reg16) | addSP
  | rotateA (op : ShiftOp)
  | daa | cpl | scf | ccf
  | jump (cond : Option Cond) | jumpHL
  | jumpRel (cond : Option Cond)
  | call (cond : Option Cond) | rst (target : UInt8)
  | ret (cond : Option Cond) | reti
  | extended
deriving DecidableEq

/-- What the byte after the prefix asks for. -/
inductive BitInstr
  | shift (op : ShiftOp) (r : Operand)
  | test (bit : Fin 8) (r : Operand)
  | reset (bit : Fin 8) (r : Operand)
  | set (bit : Fin 8) (r : Operand)
deriving DecidableEq

def undefinedOpcodes : List UInt8 :=
  [0xD3,0xDB,0xDD,0xE3,0xE4,0xEB,0xEC,0xED,0xF4,0xFC,0xFD]

-- The fields of an opcode overlap: bits 7 and 6, then 5 to 3, of which 5 and 4 or 4 and 3, then 2 to 0.
def quadrant (op : UInt8) : Fin 4 := twoBits (op.toNat / 64)
def middle (op : UInt8) : Fin 8 := threeBits (op.toNat / 8)
def pairField (op : UInt8) : Fin 4 := twoBits (op.toNat / 16)
def condField (op : UInt8) : Fin 4 := twoBits (op.toNat / 8)
def low (op : UInt8) : Fin 8 := threeBits op.toNat

namespace Instr

/-- The opcodes 0x00 to 0x3F. -/
def decodeFirst (op : UInt8) : Instr :=
  let p := Reg16.ofIndex (pairField op)
  let v := Pointer.ofIndex (pairField op)
  let r := Operand.ofIndex (middle op)
  let odd := middle op % 2 == 1
  match low op with
  | 0 => match middle op with
    | 0 => nop
    | 1 => storeSP
    | 2 => stop
    | 3 => jumpRel none
    | _ => jumpRel (some (Cond.ofIndex (condField op)))
  | 1 => if odd then addHL p else loadPair p
  | 2 => if odd then loadVia v else storeVia v
  | 3 => if odd then decPair p else incPair p
  | 4 => inc r
  | 5 => dec r
  | 6 => loadImm r
  | 7 => match middle op with
    | 0 => rotateA .rlc
    | 1 => rotateA .rrc
    | 2 => rotateA .rl
    | 3 => rotateA .rr
    | 4 => daa
    | 5 => cpl
    | 6 => scf
    | 7 => ccf

/-- The opcodes 0xC0 to 0xFF. -/
def decodeLast (op : UInt8) : Option Instr :=
  let cond := some (Cond.ofIndex (condField op))
  let p := Reg16.ofStackIndex (pairField op)
  match low op with
  | 0 => match middle op with
    | 4 => storeHigh
    | 5 => addSP
    | 6 => loadHigh
    | 7 => loadOffset
    | _ => ret cond
  | 1 => match middle op with
    | 1 => ret none
    | 3 => reti
    | 5 => jumpHL
    | 7 => loadSP
    | _ => pop p
  | 2 => match middle op with
    | 4 => storeHighC
    | 5 => storeAbs
    | 6 => loadHighC
    | 7 => loadAbs
    | _ => jump cond
  | 3 => match middle op with
    | 0 => jump none
    | 1 => extended
    | 6 => di
    | 7 => ei
    | _ => none
  | 4 => if middle op < 4 then call cond else none
  | 5 => match middle op with
    | 1 => call none
    | 3 | 5 | 7 => none
    | _ => push p
  | 6 => aluImm (.ofIndex (middle op))
  | 7 => rst (op &&& 0x38)

def decode (op : UInt8) : Option Instr :=
  match quadrant op with
  | 0 => decodeFirst op
  | 1 => if op = 0x76 then halt else load (.ofIndex (middle op)) (.ofIndex (low op))
  | 2 => alu (.ofIndex (middle op)) (.ofIndex (low op))
  | 3 => decodeLast op

def operandBytes : Instr → Nat
  | stop | loadImm _ | aluImm _ | jumpRel _ | storeHigh | loadHigh | addSP | loadOffset | extended => 1
  | loadPair _ | storeSP | storeAbs | loadAbs | jump _ | call _ => 2
  | _ => 0

def length (i : Instr) : Nat := 1 + i.operandBytes

theorem decode_eq_none_iff (op : UInt8) : decode op = none ↔ op ∈ undefinedOpcodes := by
  revert op
  decide +kernel

theorem length_le (i : Instr) : i.length ≤ 3 := by cases i <;> simp [length,operandBytes]

end Instr

namespace BitInstr

def decode? (op : UInt8) : Option BitInstr :=
  let r := Operand.ofIndex (low op)
  match op.toNat / 64 with
  | 0 => some (shift (.ofIndex (middle op)) r)
  | 1 => some (test (middle op) r)
  | 2 => some (reset (middle op) r)
  | 3 => some (set (middle op) r)
  | _ => none

theorem isSome_decode? (op : UInt8) : (decode? op).isSome := by
  revert op
  decide +kernel

def decode (op : UInt8) : BitInstr := (decode? op).get (isSome_decode? op)

end BitInstr

inductive Entry
  | runs (i : Instr)
  | illegal
  | unimplemented

def entry (op : UInt8) : Entry :=
  match Instr.decode op with
  | some i => .runs i
  | none => if op ∈ undefinedOpcodes then .illegal else .unimplemented

theorem entry_eq (op : UInt8) : entry op = (Instr.decode op).elim .illegal .runs := by
  rw [entry]
  cases decoded : Instr.decode op with
  | none => exact if_pos ((Instr.decode_eq_none_iff op).mp decoded)
  | some i => rfl

/-- In bytes. An opcode without an instruction stands alone. -/
def opcodeLength (op : UInt8) : Nat :=
  let bytes := [0xCB,0x06,0x0E,0x16,0x1E,0x26,0x2E,0x36,0x3E,0x10,0x18,0x20,0x28,0x30,0x38,
    0xC6,0xCE,0xD6,0xDE,0xE6,0xEE,0xF6,0xFE,0xE0,0xE8,0xF0,0xF8]
  let words := [0x01,0x11,0x21,0x31,0x08,0xC2,0xC3,0xCA,0xD2,0xDA,0xC4,0xCC,0xCD,0xD4,0xDC,0xEA,0xFA]
  if op ∈ bytes then 2 else if op ∈ words then 3 else 1

theorem opcodeLength_eq (op : UInt8) : opcodeLength op = (Instr.decode op).elim 1 Instr.length := by
  revert op
  decide +kernel

end Sm83
