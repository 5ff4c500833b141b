import Sm83.Registers

/-!
Arithmetic on bytes and words and the flags it sets. Main statements: `add_value` and `sub_value`, over
the integers the bit that leaves the byte is accounted for.
-/
namespace Sm83

inductive AluOp
  | add | adc | sub | sbc | and | xor | or | cp
deriving DecidableEq

def AluOp.ofIndex : Fin 8 → AluOp
  | 0 => .add | 1 => .adc | 2 => .sub | 3 => .sbc | 4 => .and | 5 => .xor | 6 => .or | 7 => .cp

inductive ShiftOp
  | rlc | rrc | rl | rr | sla | sra | swap | srl
deriving DecidableEq

def ShiftOp.ofIndex : Fin 8 → ShiftOp
  | 0 => .rlc | 1 => .rrc | 2 => .rl | 3 => .rr | 4 => .sla | 5 => .sra | 6 => .swap | 7 => .srl

/-- The rotations of the accumulator clear Z; all other shifts set it on a zero result. -/
inductive ZeroRule
  | cleared | ofResult
deriving DecidableEq

namespace Alu

/-- `x + y`, and one more if a carry comes in. H and C are the carries out of bits 3 and 7. -/
def add (x y : UInt8) (carry : Bool) : UInt8 × Flags :=
  let sum := x.toNat + y.toNat + carry.toNat
  let r := UInt8.ofNat sum
  (r,{z := r == 0, h := x.toNat % 16 + y.toNat % 16 + carry.toNat > 15, c := sum > 255})

/-- `x - y`, and one less if a borrow comes in. H and C are the borrows into bits 3 and 7. -/
def sub (x y : UInt8) (borrow : Bool) : UInt8 × Flags :=
  let taken := y.toNat + borrow.toNat
  let r := x - UInt8.ofNat taken
  (r,{z := r == 0, n := true, h := x.toNat % 16 < y.toNat % 16 + borrow.toNat, c := x.toNat < taken})

def and (x y : UInt8) : UInt8 × Flags := (x &&& y,{z := x &&& y == 0, h := true})

def or (x y : UInt8) : UInt8 × Flags := (x ||| y,{z := x ||| y == 0})

def xor (x y : UInt8) : UInt8 × Flags := (x ^^^ y,{z := x ^^^ y == 0})

def inc (f : Flags) (x : UInt8) : UInt8 × Flags :=
  (x + 1,{z := x + 1 == 0, h := x &&& 0x0F == 0x0F, c := f.c})

def dec (f : Flags) (x : UInt8) : UInt8 × Flags :=
  (x - 1,{z := x - 1 == 0, n := true, h := x &&& 0x0F == 0, c := f.c})

/-- The sum of two words. H and C are the carries out of bits 11 and 15; Z is kept. -/
def addWord (f : Flags) (x y : UInt16) : UInt16 × Flags :=
  (x + y,{z := f.z, h := x.toNat % 0x1000 + y.toNat % 0x1000 > 0xFFF, c := x.toNat + y.toNat > 0xFFFF})

/-- A word plus a signed byte. H and C are those of adding the byte, unsigned, to the low byte. -/
def addSigned (w : UInt16) (e : UInt8) : UInt16 × Flags :=
  (w + signExtend e,
    {h := w.toNat % 16 + e.toNat % 16 > 15, c := w.toNat % 256 + e.toNat > 255})

/-- Corrects the sum or difference of two packed decimal bytes to packed decimal. -/
def decimalAdjust (a : UInt8) (f : Flags) : UInt8 × Flags :=
  let carry := f.c || !f.n && a > 0x99
  let a₁ := if !carry then a else if f.n then a - 0x60 else a + 0x60
  let half := f.h || !f.n && (a₁ &&& 0x0F) > 0x09
  let a₂ := if !half then a₁ else if f.n then a₁ - 0x06 else a₁ + 0x06
  (a₂,{f with z := a₂ == 0, h := false, c := carry})

/-- The moved bits and the bit that was shifted out. -/
def moveBits (op : ShiftOp) (carry : Bool) (v : UInt8) : UInt8 × Bool :=
  let cin : UInt8 := if carry then 1 else 0
  match op with
  | .rlc => (v <<< 1 ||| v >>> 7,v &&& 0x80 != 0)
  | .rrc => (v >>> 1 ||| v <<< 7,v &&& 0x01 != 0)
  | .rl => (v <<< 1 ||| cin,v &&& 0x80 != 0)
  | .rr => (v >>> 1 ||| cin <<< 7,v &&& 0x01 != 0)
  | .sla => (v <<< 1,v &&& 0x80 != 0)
  | .sra => (v >>> 1 ||| v &&& 0x80,v &&& 0x01 != 0)
  | .swap => (v <<< 4 ||| v >>> 4,false)
  | .srl => (v >>> 1,v &&& 0x01 != 0)

def shift (op : ShiftOp) (f : Flags) (zero : ZeroRule) (v : UInt8) : UInt8 × Flags :=
  let (r,out) := moveBits op f.c v
  (r,{z := zero == .ofResult && r == 0, c := out})

def testBit (f : Flags) (b : Fin 8) (v : UInt8) : Flags := {z := v &&& bitMask b == 0, h := true, c := f.c}

def resetBit (b : Fin 8) (v : UInt8) : UInt8 := v &&& ~~~(bitMask b)

def setBit (b : Fin 8) (v : UInt8) : UInt8 := v ||| bitMask b

theorem add_value (x y : UInt8) (carry : Bool) :
    (add x y carry).1.toNat + 256 * (add x y carry).2.c.toNat = x.toNat + y.toNat + carry.toNat := by
  have := x.toNat_lt; have := y.toNat_lt; have := carry.toNat_le
  simp only [add]
  by_cases h : x.toNat + y.toNat + carry.toNat > 255 <;> simp [h] <;> omega

theorem sub_value (x y : UInt8) (borrow : Bool) :
    (sub x y borrow).1.toNat + y.toNat + borrow.toNat = x.toNat + 256 * (sub x y borrow).2.c.toNat := by
  have := x.toNat_lt; have := y.toNat_lt; have := borrow.toNat_le
  simp only [sub,UInt8.toNat_sub]
  by_cases h : x.toNat < y.toNat + borrow.toNat <;> simp [h] <;> omega

end Alu

namespace Registers

def accumulate (r : Registers) (op : AluOp) (v : UInt8) : Registers :=
  let store (result : UInt8 × Flags) : Registers := {r with a := result.1, flags := result.2}
  match op with
  | .add => store (Alu.add r.a v false)
  | .adc => store (Alu.add r.a v r.flags.c)
  | .sub => store (Alu.sub r.a v false)
  | .sbc => store (Alu.sub r.a v r.flags.c)
  | .and => store (Alu.and r.a v)
  | .xor => store (Alu.xor r.a v)
  | .or => store (Alu.or r.a v)
  | .cp => {r with flags := (Alu.sub r.a v false).2}

def addHL (r : Registers) (w : UInt16) : Registers :=
  let (sum,flags) := Alu.addWord r.flags r.hl w
  {r with flags := flags}.setHL sum

def decimalAdjust (r : Registers) : Registers :=
  let (a,flags) := Alu.decimalAdjust r.a r.flags
  {r with a := a, flags := flags}

def rotateA (r : Registers) (op : ShiftOp) : Registers :=
  let (a,flags) := Alu.shift op r.flags .cleared r.a
  {r with a := a, flags := flags}

def complement (r : Registers) : Registers :=
  {r with a := ~~~r.a, flags := {r.flags with n := true, h := true}}

def putCarry (r : Registers) (c : Bool) : Registers :=
  {r with flags := {z := r.flags.z, c := c}}

end Registers
end Sm83
