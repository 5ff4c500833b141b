import Sm83.Word
import Sm83.Text.Numeral
import Sm83.Registers.Flags

/-!
The register file. A pair is a view of two byte registers, the first-named one high, so
`get16_set16` and `get8_set8` say all there is to say about reading what was written.
-/
namespace Sm83
open Text

inductive Reg8
  | a | f | b | c | d | e | h | l
deriving DecidableEq

inductive Reg16
  | af | bc | de | hl | sp | pc
deriving DecidableEq

def Reg8.name : Reg8 → String
  | .a => "A" | .f => "F" | .b => "B" | .c => "C" | .d => "D" | .e => "E" | .h => "H" | .l => "L"

def Reg16.name : Reg16 → String
  | .af => "AF" | .bc => "BC" | .de => "DE" | .hl => "HL" | .sp => "SP" | .pc => "PC"

structure Registers where
  a : UInt8 := 0
  flags : Flags := {}
  b : UInt8 := 0
  c : UInt8 := 0
  d : UInt8 := 0
  e : UInt8 := 0
  h : UInt8 := 0
  l : UInt8 := 0
  sp : UInt16 := 0
  pc : UInt16 := 0
deriving DecidableEq, Inhabited

namespace Registers

def f (r : Registers) : UInt8 := r.flags.toByte
def af (r : Registers) : UInt16 := word r.a r.f
def bc (r : Registers) : UInt16 := word r.b r.c
def de (r : Registers) : UInt16 := word r.d r.e
def hl (r : Registers) : UInt16 := word r.h r.l

def setAF (r : Registers) (w : UInt16) : Registers :=
  { r with a := highByte w, flags := .ofByte (lowByte w) }
def setBC (r : Registers) (w : UInt16) : Registers := { r with b := highByte w, c := lowByte w }
def setDE (r : Registers) (w : UInt16) : Registers := { r with d := highByte w, e := lowByte w }
def setHL (r : Registers) (w : UInt16) : Registers := { r with h := highByte w, l := lowByte w }

def get8 (r : Registers) : Reg8 → UInt8
  | .a => r.a | .f => r.f | .b => r.b | .c => r.c | .d => r.d | .e => r.e | .h => r.h | .l => r.l

/-- Writing F keeps only its flags. -/
def set8 (r : Registers) (v : UInt8) : Reg8 → Registers
  | .a => { r with a := v }
  | .f => { r with flags := .ofByte v }
  | .b => { r with b := v }
  | .c => { r with c := v }
  | .d => { r with d := v }
  | .e => { r with e := v }
  | .h => { r with h := v }
  | .l => { r with l := v }

def get16 (r : Registers) : Reg16 → UInt16
  | .af => r.af | .bc => r.bc | .de => r.de | .hl => r.hl | .sp => r.sp | .pc => r.pc

def set16 (r : Registers) (w : UInt16) : Reg16 → Registers
  | .af => r.setAF w
  | .bc => r.setBC w
  | .de => r.setDE w
  | .hl => r.setHL w
  | .sp => { r with sp := w }
  | .pc => { r with pc := w }

/-- What the boot program leaves behind as it enters the cartridge. -/
def postBoot : Registers :=
  { a := 0x01, flags := .ofByte 0xB0, b := 0x00, c := 0x13, d := 0x00, e := 0xD8, h := 0x01, l := 0x4D,
    sp := 0xFFFE, pc := 0x0100 }

def text (r : Registers) : String :=
  let pair (w : UInt16) := upperHex 4 w.toNat
  s!"AF={pair r.af} BC={pair r.bc} DE={pair r.de} HL={pair r.hl} " ++
    s!"SP={pair r.sp} PC={pair r.pc} [{r.flags.text}]"

theorem get8_set8 (r : Registers) (v : UInt8) (x y : Reg8) :
    (r.set8 v x).get8 y = if y = x then (if x = .f then v &&& 0xF0 else v) else r.get8 y := by
  cases x <;> cases y <;> simp [get8,set8,f,Flags.toByte_ofByte]

theorem get16_set16 (r : Registers) (w : UInt16) (x : Reg16) :
    (r.set16 w x).get16 x = if x = .af then word (highByte w) (lowByte w &&& 0xF0) else w := by
  cases x <;>
    simp [get16,set16,af,bc,de,hl,setAF,setBC,setDE,setHL,f,Flags.toByte_ofByte]

end Registers
end Sm83
