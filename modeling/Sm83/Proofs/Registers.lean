import Sm83.Alu

/-!
The register file as those who use it see it: bytes and words that share their storage (`Place`), the writes
to them (`Write`), and the arithmetic that leaves its flags in F (`Primitive`). Main statements: `read_write`
and `keeps_write`, a write is read back and nothing apart from it changes, and `perform_eq`, a primitive is
no more than its writes.
-/
namespace Sm83

/-- The registers that a pair is a view of, high byte first. -/
def Reg16.bytes : Reg16 → List Reg8
  | .af => [.a,.f] | .bc => [.b,.c] | .de => [.d,.e] | .hl => [.h,.l] | .sp | .pc => []

inductive Place
  | byte (x : Reg8)
  | pair (p : Reg16)
deriving DecidableEq

namespace Place

def cells : Place → List Place
  | byte x => [byte x]
  | pair .sp => [pair .sp]
  | pair .pc => [pair .pc]
  | pair p => p.bytes.map byte

def Apart (p q : Place) : Prop := ∀ c ∈ q.cells, c ∉ p.cells

private theorem byte_or_word_of_mem {q c : Place} (cell : c ∈ q.cells) :
    (∃ x, c = byte x) ∨ c = pair .sp ∨ c = pair .pc := by
  cases q with
  | byte x => exact .inl ⟨x,List.mem_singleton.mp cell⟩
  | pair p =>
    cases p with
    | sp => exact .inr (.inl (List.mem_singleton.mp cell))
    | pc => exact .inr (.inr (List.mem_singleton.mp cell))
    | af | bc | de | hl =>
      obtain ⟨x,-,same⟩ := List.mem_map.mp cell
      exact .inl ⟨x,same.symm⟩

instance (p q : Place) : Decidable (Apart p q) := inferInstanceAs (Decidable (∀ c ∈ q.cells, c ∉ p.cells))

def everything : List Place := [pair .af,pair .bc,pair .de,pair .hl,pair .sp,pair .pc]

theorem overlaps_everything (q : Place) : ∃ p ∈ everything, ¬ p.Apart q := by
  cases q with
  | byte x => cases x <;> decide
  | pair p => cases p <;> decide

end Place

private theorem Flags.assign_single (f : Flags) (value : Bool) :
    f.assign {z := true} value = {f with z := value} ∧ f.assign {n := true} value = {f with n := value} ∧
      f.assign {h := true} value = {f with h := value} ∧ f.assign {c := true} value = {f with c := value} := by
  cases value <;> simp [assign,union,remove]

/-- Flags as programs put them together. -/
inductive Mask
  | ofBits (b : UInt8)
  | none | z | n | h | c | all
  | or (x y : Mask)
  | set (x y : Mask) (value : Bool)

namespace Mask

def flags : Mask → Flags
  | ofBits b => .ofByte b
  | none => .none
  | z => {z := true}
  | n => {n := true}
  | h => {h := true}
  | c => {c := true}
  | all => ⟨true,true,true,true⟩
  | or x y => x.flags.union y.flags
  | set x y value => x.flags.assign y.flags value

/-- The same on bytes, which are masked as they come in and never again. -/
def bits : Mask → UInt8
  | ofBits b => b &&& 0xF0
  | none => 0x00
  | z => 0x80
  | n => 0x40
  | h => 0x20
  | c => 0x10
  | all => 0xF0
  | or x y => x.bits ||| y.bits
  | set x y value => if value then x.bits ||| y.bits else x.bits &&& ~~~y.bits

private theorem toByte_flags (m : Mask) : m.flags.toByte = m.bits := by
  induction m with
  | ofBits b => exact Flags.toByte_ofByte b
  | or x y ihx ihy => rw [flags,Flags.toByte_union,ihx,ihy,bits]
  | set x y value ihx ihy => rw [flags,Flags.toByte_assign,ihx,ihy,bits]
  | _ => rfl

/-- Z, H and C as they come out of arithmetic, on top of what is there. -/
def result (x : Mask) (out : Flags) : Mask := ((x.set z out.z).set h out.h).set c out.c

private theorem flags_result (x : Mask) (out : Flags) :
    (x.result out).flags = {out with n := x.flags.n} := by
  simp only [result,flags,Flags.assign_single]

def zero (v : UInt8) : Mask := if v == 0 then z else none

private theorem flags_zero (v : UInt8) : (zero v).flags = {z := v == 0} := by
  rw [zero]
  cases v == 0 <;> rfl

end Mask

inductive Write
  | set8 (x : Reg8) (v : UInt8)
  | set16 (p : Reg16) (w : UInt16)
  | setFlags (m : Mask)
  | setFlag (m : Mask)
  | clearFlag (m : Mask)
  | assignFlag (m : Mask) (value : Bool)

def Write.target : Write → Place
  | set8 x _ => .byte x
  | set16 p _ => .pair p
  | setFlags _ | setFlag _ | clearFlag _ | assignFlag .. => .byte .f

/-- What a write leaves at its target: all that is written, but for the low nibble of F. The flags are
given as the bits of F that come of those that were there. -/
def Write.value (f : UInt8) : Write → Nat
  | set8 x v => if x = .f then v.toNat / 16 * 16 else v.toNat
  | set16 p w => if p = .af then w.toNat / 16 * 16 else w.toNat
  | setFlags m => m.bits.toNat
  | setFlag m => (f ||| m.bits).toNat
  | clearFlag m => (f &&& ~~~m.bits).toNat
  | assignFlag m value => (if value then f ||| m.bits else f &&& ~~~m.bits).toNat

namespace Registers

def read (r : Registers) : Place → Nat
  | .byte x => (r.get8 x).toNat
  | .pair p => (r.get16 p).toNat

def write (r : Registers) : Write → Registers
  | .set8 x v => r.set8 v x
  | .set16 p w => r.set16 w p
  | .setFlags m => {r with flags := m.flags}
  | .setFlag m => {r with flags := r.flags.union m.flags}
  | .clearFlag m => {r with flags := r.flags.remove m.flags}
  | .assignFlag m value => {r with flags := r.flags.assign m.flags value}

def writeAll (r : Registers) (ws : List Write) : Registers := ws.foldl write r

private theorem get16_of_bytes {p : Reg16} {hi lo : Reg8} (bytes : p.bytes = [hi,lo]) (r : Registers) :
    r.get16 p = word (r.get8 hi) (r.get8 lo) := by
  cases p <;> cases bytes <;> rfl

theorem read_pair {p : Reg16} {hi lo : Reg8} (bytes : p.bytes = [hi,lo]) (r : Registers) :
    r.read (.pair p) = r.read (.byte hi) * 256 + r.read (.byte lo) := by
  change (r.get16 p).toNat = _
  rw [get16_of_bytes bytes,toNat_word]
  rfl

private theorem toNat_masked (v : UInt8) : (v &&& 0xF0).toNat = v.toNat / 16 * 16 := by
  revert v
  decide +kernel

theorem read_write (r : Registers) (w : Write) : (r.write w).read w.target = w.value r.f := by
  cases w with
  | set8 x v =>
    change ((r.set8 v x).get8 x).toNat = _
    rw [get8_set8,if_pos rfl,Write.value]
    split
    · exact toNat_masked v
    · rfl
  | set16 p w =>
    change ((r.set16 w p).get16 p).toNat = _
    rw [get16_set16,Write.value]
    split
    · rw [toNat_word,toNat_masked,toNat_highByte,toNat_lowByte]
      omega
    · rfl
  | setFlags m => exact congrArg UInt8.toNat m.toByte_flags
  | setFlag m =>
    rw [Write.value,← m.toByte_flags]
    exact congrArg UInt8.toNat (Flags.toByte_union _ _)
  | clearFlag m =>
    rw [Write.value,← m.toByte_flags]
    exact congrArg UInt8.toNat (Flags.toByte_remove _ _)
  | assignFlag m value =>
    rw [Write.value,← m.toByte_flags]
    exact congrArg UInt8.toNat (Flags.toByte_assign _ _ _)

def Keeps (places : List Place) (r s : Registers) : Prop :=
  ∀ q, (∀ p ∈ places, p.Apart q) → s.read q = r.read q

variable {places : List Place} {r s t : Registers}

theorem Keeps.refl (places : List Place) (r : Registers) : Keeps places r r := fun _ _ => rfl

theorem Keeps.trans (first : Keeps places r s) (next : Keeps places s t) : Keeps places r t :=
  fun q apart => (next q apart).trans (first q apart)

theorem Keeps.mono {more : List Place} (sub : places ⊆ more) (keeps : Keeps places r s) : Keeps more r s :=
  fun q apart => keeps q fun p member => apart p (sub member)

private theorem read_congr {q : Place} (same : ∀ c ∈ q.cells, s.read c = r.read c) :
    s.read q = r.read q := by
  cases q with
  | byte x => exact same _ List.mem_cons_self
  | pair p =>
    cases p with
    | sp | pc => exact same _ List.mem_cons_self
    | af | bc | de | hl =>
      have high := same _ List.mem_cons_self
      have low := same _ (List.mem_cons_of_mem _ List.mem_cons_self)
      rw [read_pair rfl,read_pair rfl,high,low]

private theorem set16_of_bytes {p : Reg16} {hi lo : Reg8} (bytes : p.bytes = [hi,lo]) (r : Registers)
    (w : UInt16) : r.set16 w p = (r.set8 (highByte w) hi).set8 (lowByte w) lo := by
  cases p <;> cases bytes <;> rfl

section
variable {q c : Place}

private theorem read_set8_of_ne (r : Registers) (v : UInt8) {x : Reg8} (cell : c ∈ q.cells)
    (other : c ≠ .byte x) : (r.set8 v x).read c = r.read c := by
  obtain ⟨y,rfl⟩ | rfl | rfl := Place.byte_or_word_of_mem cell
  · have kept := r.get8_set8 v x y
    rw [if_neg fun same => other (congrArg Place.byte same)] at kept
    exact congrArg UInt8.toNat kept
  · cases x <;> rfl
  · cases x <;> rfl

private theorem read_flags_of_ne (r : Registers) (g : Flags) (cell : c ∈ q.cells) (other : c ≠ .byte .f) :
    {r with flags := g}.read c = r.read c := by
  have kept := r.read_set8_of_ne g.toByte cell other
  rwa [set8,Flags.ofByte_toByte] at kept

private theorem read_set16_of_not_mem (r : Registers) (w : UInt16) {p : Reg16} (cell : c ∈ q.cells)
    (free : c ∉ (Place.pair p).cells) : (r.set16 w p).read c = r.read c := by
  cases p with
  | af | bc | de | hl =>
    rw [set16_of_bytes rfl]
    have low := List.ne_of_not_mem_cons (List.not_mem_of_not_mem_cons free)
    have high := List.ne_of_not_mem_cons free
    exact (read_set8_of_ne _ _ cell low).trans (r.read_set8_of_ne _ cell high)
  | sp =>
    obtain ⟨y,rfl⟩ | rfl | rfl := Place.byte_or_word_of_mem cell
    · cases y <;> rfl
    · exact absurd List.mem_cons_self free
    · rfl
  | pc =>
    obtain ⟨y,rfl⟩ | rfl | rfl := Place.byte_or_word_of_mem cell
    · cases y <;> rfl
    · rfl
    · exact absurd List.mem_cons_self free

private theorem read_write_of_not_mem (r : Registers) (w : Write) (cell : c ∈ q.cells)
    (free : c ∉ w.target.cells) : (r.write w).read c = r.read c := by
  cases w with
  | setFlags | setFlag | clearFlag | assignFlag =>
    exact r.read_flags_of_ne _ cell (List.ne_of_not_mem_cons free)
  | set8 x v => exact r.read_set8_of_ne v cell (List.ne_of_not_mem_cons free)
  | set16 p w => exact r.read_set16_of_not_mem w cell free

end

theorem keeps_write (r : Registers) (w : Write) (member : w.target ∈ places) : Keeps places r (r.write w) :=
  fun _ apart => read_congr fun _ cell => read_write_of_not_mem r w cell (apart _ member _ cell)

theorem keeps_flags (r : Registers) (g : Flags) (member : .byte .f ∈ places) :
    Keeps places r {r with flags := g} := by
  have kept := r.keeps_write (.setFlags (.ofBits g.toByte)) member
  rwa [write,Mask.flags,Flags.ofByte_toByte] at kept

theorem keeps_flags_write (r : Registers) (g : Flags) (w : Write) (flags : .byte .f ∈ places)
    (member : w.target ∈ places) : Keeps places r ({r with flags := g}.write w) :=
  (r.keeps_flags g flags).trans (keeps_write _ w member)

private theorem keeps_writeAll (r : Registers) {ws : List Write} (sub : ∀ w ∈ ws, w.target ∈ places) :
    Keeps places r (r.writeAll ws) := by
  induction ws generalizing r with
  | nil => exact .refl places r
  | cons w ws ih =>
    have first := r.keeps_write w (sub w List.mem_cons_self)
    exact first.trans (ih (r.write w) fun x member => sub x (List.mem_cons_of_mem w member))

end Registers

/-- The arithmetic on the register file, with its operands. -/
inductive Primitive
  | inc8 (v : UInt8)
  | dec8 (v : UInt8)
  | add8 (x y : UInt8) (withCarry : Bool)
  | sub8 (x y : UInt8) (withCarry : Bool)
  | and8 (x y : UInt8)
  | or8 (x y : UInt8)
  | xor8 (x y : UInt8)
  | alu (op : AluOp) (v : UInt8)
  | addHL (w : UInt16)
  | addSigned (e : UInt8)
  | daa
  | shift (op : ShiftOp) (zero : ZeroRule) (v : UInt8)
  | testBit (b : Fin 8) (v : UInt8)

def Registers.perform (r : Registers) : Primitive → Registers
  | .inc8 v => {r with flags := (Alu.inc r.flags v).2}
  | .dec8 v => {r with flags := (Alu.dec r.flags v).2}
  | .add8 x y withCarry => {r with flags := (Alu.add x y (withCarry && r.flags.c)).2}
  | .sub8 x y withCarry => {r with flags := (Alu.sub x y (withCarry && r.flags.c)).2}
  | .and8 x y => {r with flags := (Alu.and x y).2}
  | .or8 x y => {r with flags := (Alu.or x y).2}
  | .xor8 x y => {r with flags := (Alu.xor x y).2}
  | .alu op v => r.accumulate op v
  | .addHL w => r.addHL w
  | .addSigned e => {r with flags := (Alu.addSigned r.sp e).2}
  | .daa => r.decimalAdjust
  | .shift op zero v => {r with flags := (Alu.shift op r.flags zero v).2}
  | .testBit b v => {r with flags := Alu.testBit r.flags b v}

namespace Mask

def ofAdd (x y : UInt8) (carry : Bool) : Mask := none.result (Alu.add x y carry).2
def ofSub (x y : UInt8) (borrow : Bool) : Mask := n.result (Alu.sub x y borrow).2
def ofAnd (x y : UInt8) : Mask := (zero (x &&& y)).or h
def ofOr (x y : UInt8) : Mask := zero (x ||| y)
def ofXor (x y : UInt8) : Mask := zero (x ^^^ y)

private theorem flags_ofAdd (x y : UInt8) (carry : Bool) :
    (ofAdd x y carry).flags = (Alu.add x y carry).2 :=
  flags_result _ _

private theorem flags_ofSub (x y : UInt8) (borrow : Bool) :
    (ofSub x y borrow).flags = (Alu.sub x y borrow).2 :=
  flags_result _ _

private theorem flags_ofAnd (x y : UInt8) : (ofAnd x y).flags = (Alu.and x y).2 := by
  rw [ofAnd,flags,flags_zero]
  simp [flags,Flags.union,Alu.and]

private theorem flags_ofOr (x y : UInt8) : (ofOr x y).flags = (Alu.or x y).2 := flags_zero _

private theorem flags_ofXor (x y : UInt8) : (ofXor x y).flags = (Alu.xor x y).2 := flags_zero _

end Mask

def AluOp.targets : AluOp → List Place
  | cp => [.byte .f]
  | _ => [.byte .f,.byte .a]

namespace Primitive

def writes (r : Registers) : Primitive → List Write
  | inc8 v => [.assignFlag .z (v + 1 == 0),.clearFlag .n,.assignFlag .h (v &&& 0x0F == 0x0F)]
  | dec8 v => [.assignFlag .z (v - 1 == 0),.setFlag .n,.assignFlag .h (v &&& 0x0F == 0)]
  | add8 x y withCarry => [.setFlags (.ofAdd x y (withCarry && r.flags.c))]
  | sub8 x y withCarry => [.setFlags (.ofSub x y (withCarry && r.flags.c))]
  | and8 x y => [.setFlags (.ofAnd x y)]
  | or8 x y => [.setFlags (.ofOr x y)]
  | xor8 x y => [.setFlags (.ofXor x y)]
  | alu .add v => [.setFlags (.ofAdd r.a v false),.set8 .a (Alu.add r.a v false).1]
  | alu .adc v => [.setFlags (.ofAdd r.a v r.flags.c),.set8 .a (Alu.add r.a v r.flags.c).1]
  | alu .sub v => [.setFlags (.ofSub r.a v false),.set8 .a (Alu.sub r.a v false).1]
  | alu .sbc v => [.setFlags (.ofSub r.a v r.flags.c),.set8 .a (Alu.sub r.a v r.flags.c).1]
  | alu .and v => [.setFlags (.ofAnd r.a v),.set8 .a (r.a &&& v)]
  | alu .or v => [.setFlags (.ofOr r.a v),.set8 .a (r.a ||| v)]
  | alu .xor v => [.setFlags (.ofXor r.a v),.set8 .a (r.a ^^^ v)]
  | alu .cp v => [.setFlags (.ofSub r.a v false)]
  | addHL w =>
    let out := Alu.addWord r.flags r.hl w
    [.clearFlag .n,.assignFlag .h out.2.h,.assignFlag .c out.2.c,.set16 .hl out.1]
  | addSigned e =>
    let out := (Alu.addSigned r.sp e).2
    [.setFlags ((Mask.none.set .h out.h).set .c out.c)]
  | daa =>
    let out := Alu.decimalAdjust r.a r.flags
    [.set8 .a out.1,.assignFlag .z (out.1 == 0),.clearFlag .h,.assignFlag .c out.2.c]
  | shift op zero v =>
    let out := (Alu.shift op r.flags zero v).2
    [.setFlags ((Mask.none.set .z out.z).set .c out.c)]
  | testBit b v => [.assignFlag .z (v &&& bitMask b == 0),.clearFlag .n,.setFlag .h]

def targets : Primitive → List Place
  | alu op _ => op.targets
  | daa => [.byte .f,.byte .a]
  | addHL _ => [.byte .f,.pair .hl]
  | _ => [.byte .f]

theorem target_of_mem {r : Registers} {p : Primitive} {w : Write} (member : w ∈ p.writes r) :
    w.target ∈ p.targets := by
  have targets : (p.writes r).map Write.target ⊆ p.targets := by
    cases p with
    | alu op v => cases op <;> simp [writes,Primitive.targets,AluOp.targets,Write.target]
    | _ => simp [writes,Primitive.targets,Write.target]
  exact targets (List.mem_map_of_mem member)

end Primitive

namespace Registers

theorem write_setFlag (r : Registers) (m : Mask) :
    r.write (.setFlag m) = r.write (.assignFlag m true) := rfl

theorem write_clearFlag (r : Registers) (m : Mask) :
    r.write (.clearFlag m) = r.write (.assignFlag m false) := rfl

theorem write_assignFlag (r : Registers) (value : Bool) :
    r.write (.assignFlag .z value) = {r with flags := {r.flags with z := value}} ∧
      r.write (.assignFlag .n value) = {r with flags := {r.flags with n := value}} ∧
      r.write (.assignFlag .h value) = {r with flags := {r.flags with h := value}} ∧
      r.write (.assignFlag .c value) = {r with flags := {r.flags with c := value}} := by
  simp only [write,Mask.flags,Flags.assign_single,and_self]

theorem perform_eq (r : Registers) (p : Primitive) : r.perform p = r.writeAll (p.writes r) := by
  cases p with
  | add8 | sub8 | and8 | or8 | xor8 =>
    simp only [Primitive.writes,writeAll,List.foldl,write,Mask.flags_ofAdd,Mask.flags_ofSub,Mask.flags_ofAnd,
      Mask.flags_ofOr,Mask.flags_ofXor]
    rfl
  | alu op v =>
    cases op <;>
      simp only [Primitive.writes,writeAll,List.foldl,write,Mask.flags_ofAdd,Mask.flags_ofSub,Mask.flags_ofAnd,
        Mask.flags_ofOr,Mask.flags_ofXor] <;> rfl
  -- these change one flag after the other, and the rest keep their values
  | inc8 | dec8 | addHL | daa | testBit =>
    simp only [Primitive.writes,writeAll,List.foldl,write_setFlag,write_clearFlag,write_assignFlag]
    rfl
  | addSigned | shift =>
    simp only [Primitive.writes,writeAll,List.foldl,write,Mask.flags,Flags.assign_single]
    rfl

theorem keeps_perform (r : Registers) (p : Primitive) : Keeps p.targets r (r.perform p) := by
  rw [perform_eq]
  exact r.keeps_writeAll fun w => Primitive.target_of_mem

end Registers
end Sm83
