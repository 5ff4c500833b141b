import Sm83.Instr

/-!
Instructions as an assembler writes them, with `n` for a byte that follows the opcode, `nn` for a
word and `e` for a signed byte.
-/
namespace Sm83
open Text

def Operand.text : Operand → String
  | reg r => r.name
  | atHL => "(HL)"

def Pointer.text : Pointer → String
  | bc => "(BC)" | de => "(DE)" | hlUp => "(HL+)" | hlDown => "(HL-)"

def Cond.text : Cond → String
  | nz => "NZ" | z => "Z" | nc => "NC" | c => "C"

/-- The operation up to its operand. Only additions and `SBC` name the accumulator. -/
def AluOp.text : AluOp → String
  | add => "ADD A," | adc => "ADC A," | sub => "SUB " | sbc => "SBC A,"
  | and => "AND " | xor => "XOR " | or => "OR " | cp => "CP "

def ShiftOp.text : ShiftOp → String
  | rlc => "RLC" | rrc => "RRC" | rl => "RL" | rr => "RR"
  | sla => "SLA" | sra => "SRA" | swap => "SWAP" | srl => "SRL"

private def conditional (name target : String) : Option Cond → String
  | none => if target.isEmpty then name else s!"{name} {target}"
  | some cond =>
    if target.isEmpty then s!"{name} {cond.text}" else s!"{name} {cond.text},{target}"

def Instr.mnemonic : Instr → String
  | nop => "NOP" | halt => "HALT" | stop => "STOP" | di => "DI" | ei => "EI"
  | load dst src => s!"LD {dst.text},{src.text}"
  | loadImm dst => s!"LD {dst.text},n"
  | loadPair dst => s!"LD {dst.name},nn"
  | storeVia p => s!"LD {p.text},A"
  | loadVia p => s!"LD A,{p.text}"
  | storeHigh => "LDH (n),A" | loadHigh => "LDH A,(n)"
  | storeHighC => "LD (C),A" | loadHighC => "LD A,(C)"
  | storeAbs => "LD (nn),A" | loadAbs => "LD A,(nn)"
  | storeSP => "LD (nn),SP" | loadSP => "LD SP,HL" | loadOffset => "LD HL,SP+e"
  | push p => s!"PUSH {p.name}"
  | pop p => s!"POP {p.name}"
  | alu op src => op.text ++ src.text
  | aluImm op => op.text ++ "n"
  | inc dst => s!"INC {dst.text}"
  | dec dst => s!"DEC {dst.text}"
  | incPair p => s!"INC {p.name}"
  | decPair p => s!"DEC {p.name}"
  | addHL p => s!"ADD HL,{p.name}"
  | addSP => "ADD SP,e"
  | rotateA op => op.text ++ "A"
  | daa => "DAA" | cpl => "CPL" | scf => "SCF" | ccf => "CCF"
  | jump cond => conditional "JP" "nn" cond
  | jumpHL => "JP HL"
  | jumpRel cond => conditional "JR" "e" cond
  | call cond => conditional "CALL" "nn" cond
  | rst target => s!"RST {upperHex 2 target.toNat}H"
  | ret cond => conditional "RET" "" cond
  | reti => "RETI"
  | extended => "PREFIX CB"

def BitInstr.mnemonic : BitInstr → String
  | shift op r => s!"{op.text} {r.text}"
  | test bit r => s!"BIT {bit.val},{r.text}"
  | reset bit r => s!"RES {bit.val},{r.text}"
  | set bit r => s!"SET {bit.val},{r.text}"

/-- An opcode with the place that gives it its meaning: first in its instruction, or after 0xCB. -/
inductive Opcode
  | primary (byte : UInt8)
  | prefixed (byte : UInt8)
deriving DecidableEq

namespace Opcode

def mnemonic : Opcode → String
  | primary op => ((Instr.decode op).map Instr.mnemonic).getD "ILLEGAL"
  | prefixed op => (BitInstr.decode op).mnemonic

def text : Opcode → String
  | o@(primary op) => s!"0x{upperHex 2 op.toNat} ({o.mnemonic})"
  | o@(prefixed op) => s!"0xCB 0x{upperHex 2 op.toNat} ({o.mnemonic})"

/-- The bytes that encode the opcode itself, without the operands. -/
def encoding : Opcode → List UInt8
  | primary op => [op]
  | prefixed op => [0xCB,op]

def length : Opcode → Nat
  | primary op => opcodeLength op
  | prefixed _ => 2

end Opcode
end Sm83
