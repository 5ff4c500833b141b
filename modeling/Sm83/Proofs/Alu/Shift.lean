import Mathlib.Data.Nat.Bitwise
import Sm83.Proofs.Alu.Chain

/-!
Shifts of numbers of any length. A rotation through the carry moves one bit from each byte to the next
(`number_rotateUp`, `number_rotateDown`), and the operation on the first byte only chooses the bit that
comes in: `shifts_of_bytes`.
-/
namespace Sm83

def signedNumber (bytes : List UInt8) : Int := (BitVec.ofNat (8 * bytes.length) (number bytes)).toInt

theorem signedNumber_eq (bytes : List UInt8) : signedNumber bytes =
    if 2 * number bytes < 256 ^ bytes.length then (number bytes : Int)
    else number bytes - (256 ^ bytes.length : Nat) := by
  have size : 2 ^ (8 * bytes.length) = 256 ^ bytes.length := Nat.pow_mul 2 8 bytes.length
  rw [signedNumber,BitVec.toInt_eq_toNat_cond,BitVec.toNat_ofNat,size,Nat.mod_eq_of_lt (number_lt bytes)]

namespace Alu

/-- The first byte is moved by `first`, and each later one by `next`. -/
def shiftBytes (first next : ShiftOp) (zero : ZeroRule) (f : Flags) : List UInt8 → List UInt8 × Flags
  | [] => ([],f)
  | b :: bs =>
    let (r,g) := shift first f zero b
    let (rs,last) := chain (fun g v => shift next g zero v) g bs
    (r :: rs,last)

def shiftBytesDown (first next : ShiftOp) (zero : ZeroRule) (f : Flags) (bytes : List UInt8) :
    List UInt8 × Flags :=
  let (rs,last) := shiftBytes first next zero f bytes.reverse
  (rs.reverse,last)

section Byte
variable (f : Flags) (zero : ZeroRule) (v : UInt8)

theorem toNat_and_single (v : UInt8) {mask : UInt8} {i : Nat} (single : mask.toNat = 2 ^ i) :
    (v &&& mask).toNat = (v.toNat.testBit i).toNat * 2 ^ i := by
  rw [UInt8.toNat_and,single,Nat.and_two_pow]

theorem and_single_bne (v : UInt8) {mask : UInt8} {i : Nat} (single : mask.toNat = 2 ^ i) :
    (v &&& mask != 0) = v.toNat.testBit i := by
  rw [Bool.eq_iff_iff,bne_iff_ne,Ne,← UInt8.toNat_inj,toNat_and_single v single]
  cases v.toNat.testBit i <;> simp

private theorem toNat_and_mask (v : UInt8) {mask : UInt8} {i : Nat} (single : mask.toNat = 2 ^ i) :
    (v &&& mask).toNat = (v.toNat / 2 ^ i % 2) * 2 ^ i ∧ (v &&& mask != 0).toNat = v.toNat / 2 ^ i % 2 := by
  rw [and_single_bne v single,toNat_and_single v single,Nat.toNat_testBit]
  exact ⟨rfl,rfl⟩

theorem toNat_top (c : Bool) : ((if c then 1 else 0 : UInt8) <<< 7).toNat = 2 ^ 7 * c.toNat := by
  cases c <;> rfl

private theorem rl_value : (shift .rl f zero v).1.toNat + 256 * (shift .rl f zero v).2.c.toNat =
    2 * v.toNat + f.c.toNat := by
  have := v.toNat_lt
  have bit : (if f.c then 1 else 0 : UInt8).toNat = f.c.toNat := by cases f.c <;> rfl
  have doubled : (v <<< 1).toNat = 2 ^ 1 * (v.toNat % 128) := by
    change v.toNat <<< 1 % 256 = _
    rw [Nat.shiftLeft_eq]
    omega
  change (v <<< 1 ||| (if f.c then 1 else 0 : UInt8)).toNat + 256 * (v &&& 0x80 != 0).toNat = _
  rw [(toNat_and_mask v (i := 7) rfl).2,UInt8.toNat_or,bit,doubled,
    ← Nat.two_pow_add_eq_or_of_lt f.c.toNat_lt]
  omega

private theorem rr_value : 2 * (shift .rr f zero v).1.toNat + (shift .rr f zero v).2.c.toNat =
    v.toNat + 256 * f.c.toNat := by
  have := v.toNat_lt
  have halved : (v >>> 1).toNat = v.toNat / 2 := by
    rw [UInt8.toNat_shiftRight,Nat.shiftRight_eq_div_pow]
    rfl
  have below : v.toNat / 2 < 2 ^ 7 := by omega
  change 2 * (v >>> 1 ||| (if f.c then 1 else 0 : UInt8) <<< 7).toNat + (v &&& 0x01 != 0).toNat = _
  rw [(toNat_and_mask v (i := 0) rfl).2,UInt8.toNat_or,toNat_top,halved,Nat.or_comm,
    ← Nat.two_pow_add_eq_or_of_lt below]
  omega

private theorem shift_sla : shift .sla f zero v = shift .rl {f with c := false} zero v := by
  simp [shift,moveBits]

private theorem shift_srl : shift .srl f zero v = shift .rr {f with c := false} zero v := by
  simp [shift,moveBits]

private theorem shift_sra : shift .sra f zero v = shift .rr {f with c := v &&& 0x80 != 0} zero v := by
  have top : (if (v &&& 0x80 != 0) = true then 1 else 0 : UInt8) <<< 7 = v &&& 0x80 := by
    obtain ⟨both,bit⟩ := toNat_and_mask v (i := 7) (rfl : UInt8.toNat 0x80 = _)
    apply UInt8.toNat_inj.mp
    rw [toNat_top,bit,both,Nat.mul_comm]
  simp only [shift,moveBits,top]

end Byte

section Bytes
variable (op first next : ShiftOp) (zero : ZeroRule) (f : Flags) (bytes : List UInt8)

theorem length_shiftBytes : (shiftBytes first next zero f bytes).1.length = bytes.length := by
  cases bytes with
  | nil => rfl
  | cons b bs => exact congrArg (· + 1) (length_chain _ bs)

private theorem shiftBytes_self :
    shiftBytes op op zero f bytes = chain (fun g v => shift op g zero v) f bytes := by
  cases bytes <;> rfl

variable {first next}

/-- The operation on the first byte only chooses the bit that comes in. -/
private theorem shiftBytes_first {b : UInt8} {bs : List UInt8} {c : Bool}
    (comes : shift first f zero b = shift next {f with c := c} zero b) :
    shiftBytes first next zero f (b :: bs) = shiftBytes next next zero {f with c := c} (b :: bs) := by
  simp only [shiftBytes,comes]

theorem number_rotateUp : number (shiftBytes .rl .rl zero f bytes).1 +
    256 ^ bytes.length * (shiftBytes .rl .rl zero f bytes).2.c.toNat = 2 * number bytes + f.c.toNat := by
  have account := account_chain 256 1 UInt8.toNat UInt8.toNat UInt8.toNat Flags.c
    (f := fun g v => shift .rl g zero v)
    (fun g v (_ : v ∈ bytes) => by have := rl_value g zero v; omega) f
  rw [shiftBytes_self]
  change (number (chain _ f bytes).1 : Int) + _ * (1 * ((chain _ f bytes).2.c.toNat : Int)) =
    number bytes + 1 * (number bytes + _) at account
  zify
  linear_combination account

theorem number_rotateDown : 2 * number (shiftBytes .rr .rr zero f bytes).1.reverse +
    (shiftBytes .rr .rr zero f bytes).2.c.toNat =
      number bytes.reverse + 256 ^ bytes.length * f.c.toNat := by
  rw [shiftBytes_self]
  induction bytes generalizing f with
  | nil => simp [chain,number]
  | cons b bs ih =>
    have here := rr_value f zero b
    have rest := ih (shift .rr f zero b).2
    simp only [chain,List.reverse_cons,number_concat,List.length_reverse,length_chain,List.length_cons,
      pow_succ]
    linear_combination rest + 256 ^ bs.length * here

private theorem number_shiftDown (low : List UInt8) {top : UInt8} {c : Bool}
    (comes : shift first f zero top = shift .rr {f with c := c} zero top) :
    let moved := shiftBytesDown first .rr zero f (low ++ [top])
    2 * number moved.1 + moved.2.c.toNat = number (low ++ [top]) + 256 ^ (low.length + 1) * c.toNat := by
  intro moved
  have same : moved = shiftBytesDown .rr .rr zero {f with c := c} (low ++ [top]) := by
    simp only [moved,shiftBytesDown,List.reverse_append,List.reverse_singleton,List.singleton_append,
      shiftBytes_first zero f comes]
  have account := number_rotateDown zero {f with c := c} (low ++ [top]).reverse
  rw [List.reverse_reverse,List.length_reverse,List.length_append,List.length_singleton] at account
  rw [same]
  exact account

theorem length_shiftBytesDown : (shiftBytesDown first next zero f bytes).1.length = bytes.length := by
  rw [shiftBytesDown,List.length_reverse,length_shiftBytes,List.length_reverse]

end Bytes

section Whole
variable {bytes : List UInt8} (nonempty : bytes ≠ []) (zero : ZeroRule) (f : Flags)
include nonempty

theorem number_doubled : number (shiftBytes .sla .rl zero f bytes).1 +
    256 ^ bytes.length * (shiftBytes .sla .rl zero f bytes).2.c.toNat = 2 * number bytes := by
  obtain ⟨b,bs,rfl⟩ := List.exists_cons_of_ne_nil nonempty
  rw [shiftBytes_first zero f (shift_sla f zero b)]
  exact number_rotateUp zero {f with c := false} (b :: bs)

theorem number_halved : 2 * number (shiftBytesDown .srl .rr zero f bytes).1 +
    (shiftBytesDown .srl .rr zero f bytes).2.c.toNat = number bytes := by
  obtain ⟨low,top,rfl⟩ := bytes.eq_nil_or_concat'.resolve_left nonempty
  exact number_shiftDown zero f low (shift_srl f zero top)

theorem number_halvedSigned : 2 * number (shiftBytesDown .sra .rr zero f bytes).1 +
    (shiftBytesDown .sra .rr zero f bytes).2.c.toNat =
      number bytes + if 2 * number bytes < 256 ^ bytes.length then 0 else 256 ^ bytes.length := by
  obtain ⟨low,top,rfl⟩ := bytes.eq_nil_or_concat'.resolve_left nonempty
  have account := number_shiftDown zero f low (shift_sra f zero top)
  have sign := mul_le_add_mul_iff (q := 128) (k := top.toNat) (number_lt low)
  have := top.toNat_lt
  rw [(toNat_and_mask top (i := 7) rfl).2] at account
  rw [account,List.length_append,List.length_singleton,number_concat,pow_succ]
  split
  · have : top.toNat / 2 ^ 7 % 2 = 0 := by omega
    rw [this]
    rfl
  · have : top.toNat / 2 ^ 7 % 2 = 1 := by omega
    rw [this,Nat.mul_one]

end Whole

private theorem two_pow_top {n : Nat} (some : 0 < n) : 256 ^ n = 2 * 2 ^ (8 * n - 1) := by
  rw [← pow_succ',Nat.sub_add_cancel (by omega),pow_mul]
  rfl

private theorem carry_eq_testBit {n r x : Nat} {c : Bool} (some : 0 < n) (small : r < 256 ^ n)
    (account : r + 256 ^ n * c.toNat = 2 * x) : c = x.testBit (8 * n - 1) := by
  rw [two_pow_top some] at small account
  rw [Nat.testBit_eq_decide_div_mod_eq]
  cases c with
  | false =>
    rw [Bool.toNat_false,Nat.mul_zero] at account
    rw [Nat.div_eq_of_lt (by omega)]
    rfl
  | true =>
    rw [Bool.toNat_true,Nat.mul_one] at account
    have one : x / 2 ^ (8 * n - 1) = 1 := Nat.div_eq_of_lt_le (by omega) (by omega)
    rw [one]
    rfl

/-- A number of `n` bytes moves as a whole. `SLA` on the least significant byte and `RL` on the others
double it, `RL` alone takes C in besides; `SRL` on the most significant byte and `RR` on the others halve
it, and `SRA` in place of `SRL` halves it as two's complement, rounding down. C is the bit that leaves. -/
theorem shifts_of_bytes {bytes : List UInt8} (nonempty : bytes ≠ []) (zero : ZeroRule) (f : Flags) :
    let n := bytes.length
    let x := number bytes
    let doubled := shiftBytes .sla .rl zero f bytes
    let rotated := shiftBytes .rl .rl zero f bytes
    let halved := shiftBytesDown .srl .rr zero f bytes
    let halvedSigned := shiftBytesDown .sra .rr zero f bytes
    (doubled.1.length = n ∧ number doubled.1 = 2 * x % 256 ^ n ∧ doubled.2.c = x.testBit (8 * n - 1)) ∧
    (rotated.1.length = n ∧ number rotated.1 + 256 ^ n * rotated.2.c.toNat = 2 * x + f.c.toNat) ∧
    (halved.1.length = n ∧ number halved.1 = x / 2 ∧ halved.2.c.toNat = x % 2) ∧
    (halvedSigned.1.length = n ∧ signedNumber halvedSigned.1 = signedNumber bytes / 2 ∧
      halvedSigned.2.c.toNat = x % 2) := by
  intro n x doubled rotated halved halvedSigned
  have some : 0 < n := List.length_pos_iff.mpr nonempty
  have length : doubled.1.length = n := length_shiftBytes .sla .rl zero f bytes
  have lengthSigned : halvedSigned.1.length = n := length_shiftBytesDown zero f bytes
  have double : number doubled.1 + 256 ^ n * doubled.2.c.toNat = 2 * x := number_doubled nonempty zero f
  have half : 2 * number halved.1 + halved.2.c.toNat = x := number_halved nonempty zero f
  have halfSigned : 2 * number halvedSigned.1 + halvedSigned.2.c.toNat =
      x + if 2 * x < 256 ^ n then 0 else 256 ^ n := number_halvedSigned nonempty zero f
  have small : number doubled.1 < 256 ^ n := length ▸ number_lt doubled.1
  have := halved.2.c.toNat_le
  have := halvedSigned.2.c.toNat_le
  have even := two_pow_top some
  refine ⟨⟨length,?_,carry_eq_testBit some small double⟩,
    ⟨length_shiftBytes .rl .rl zero f bytes,number_rotateUp zero f bytes⟩,
    ⟨length_shiftBytesDown zero f bytes,by omega,by omega⟩,⟨lengthSigned,?_,?_⟩⟩
  · rw [← double,Nat.add_mul_mod_self_left,Nat.mod_eq_of_lt small]
  · rw [signedNumber_eq,signedNumber_eq,lengthSigned]
    change _ = (if 2 * x < 256 ^ n then (x : Int) else x - (256 ^ n : Nat)) / 2
    have : x < 256 ^ n := number_lt bytes
    generalize 256 ^ n = p at *
    split at halfSigned <;> split <;> omega
  · split at halfSigned <;> omega

/-- 0x8001, or -32767 as two's complement. -/
theorem shifts_of_bytes_odd :
    let doubled := shiftBytes .sla .rl .ofResult {c := true} [0x01,0x80]
    let rotated := shiftBytes .rl .rl .ofResult {c := true} [0x01,0x80]
    let halved := shiftBytesDown .srl .rr .ofResult {c := true} [0x01,0x80]
    let halvedSigned := shiftBytesDown .sra .rr .ofResult {c := true} [0x01,0x80]
    (number doubled.1 = 2 ∧ doubled.2.c) ∧ number rotated.1 + 65536 * rotated.2.c.toNat = 0x10003 ∧
      (number halved.1 = 0x4000 ∧ halved.2.c.toNat = 1) ∧
      (signedNumber halvedSigned.1 = -16384 ∧ halvedSigned.2.c.toNat = 1) := by
  intro doubled rotated halved halvedSigned
  obtain ⟨⟨-,twice,top⟩,⟨-,turned⟩,⟨-,half,odd⟩,-,halfSigned,oddSigned⟩ :=
    shifts_of_bytes (List.cons_ne_nil 0x01 [0x80]) .ofResult {c := true}
  have whole : number [0x01,0x80] = 0x8001 := by decide
  have signed : signedNumber [0x01,0x80] = -32767 := by decide
  rw [whole] at twice top turned half odd oddSigned
  rw [signed] at halfSigned
  exact ⟨⟨twice,top⟩,turned,⟨half,odd⟩,halfSigned,oddSigned⟩

end Alu
end Sm83
