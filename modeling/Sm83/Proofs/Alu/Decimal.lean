import Sm83.Proofs.Alu.Chain

/-!
Decimal numbers of any length, two digits to a byte. `DAA` corrects the sum or difference of two packed
bytes to packed digits, with the decimal carry in C (`packed_sum`, `packed_difference`), and so the
carries of a longer number come out right: `decimals_of_bytes`.
-/
namespace Sm83

def Packed (b : UInt8) : Prop := b.toNat / 16 ≤ 9 ∧ b.toNat % 16 ≤ 9

instance (b : UInt8) : Decidable (Packed b) :=
  inferInstanceAs (Decidable (b.toNat / 16 ≤ 9 ∧ b.toNat % 16 ≤ 9))

def twoDigits (b : UInt8) : Nat := 10 * (b.toNat / 16) + b.toNat % 16

def decimalNumber (bytes : List UInt8) : Nat := Nat.ofDigits 100 (bytes.map twoDigits)

namespace Alu
variable {a x y : UInt8} {f : Flags}

private theorem toNat_raised (u k : UInt8) (b : Bool) :
    (if !b then u else u + k).toNat = (u.toNat + if b then k.toNat else 0) % 256 := by
  cases b with
  | false => exact (Nat.mod_eq_of_lt u.toNat_lt).symm
  | true => exact UInt8.toNat_add u k

private theorem toNat_lowered (u k : UInt8) (b : Bool) :
    ((if !b then u else u - k).toNat : Int) = (u.toNat - k.toNat * b.toNat) % 256 := by
  have := u.toNat_lt; have := k.toNat_lt
  cases b with
  | false =>
    change (u.toNat : Int) = (u.toNat - k.toNat * (0 : Nat)) % 256
    omega
  | true =>
    change ((u - k).toNat : Int) = (u.toNat - k.toNat * (1 : Nat)) % 256
    rw [UInt8.toNat_sub]
    omega

/-- After an addition a digit is corrected if it is past 9 or has carried. -/
private theorem decimalAdjust_added (adds : f.n = false) :
    (decimalAdjust a f).1.toNat = (a.toNat + (if f.c ∨ 0x99 < a.toNat then 0x60 else 0) +
      if f.h ∨ 9 < a.toNat % 16 then 0x06 else 0) % 256 ∧
    ((decimalAdjust a f).2.c ↔ f.c ∨ 0x99 < a.toNat) := by
  obtain ⟨z,n,h,c⟩ := f
  cases adds
  let carry := c || decide (0x99 < a)
  let u := if !carry then a else a + 0x60
  let half := h || decide (0x09 < u &&& 0x0F)
  have carries : carry ↔ c ∨ 0x99 < a.toNat := by simp [carry,UInt8.lt_iff_toNat_lt]
  have moved : u.toNat = (a.toNat + if carry then 0x60 else 0) % 256 := toNat_raised a 0x60 carry
  have halves : half ↔ h ∨ 9 < a.toNat % 16 := by
    have low : (u &&& 0x0F).toNat = a.toNat % 16 := by
      rw [nibble,moved]
      split <;> omega
    simp [half,UInt8.lt_iff_toNat_lt,low]
  refine ⟨?_,carries⟩
  change (if !half then u else u + 0x06).toNat = _
  rw [toNat_raised,moved]
  simp only [halves,carries,UInt8.reduceToNat]
  omega

private theorem decimalAdjust_taken (subtracts : f.n) :
    ((decimalAdjust a f).1.toNat : Int) = (a.toNat - 0x60 * f.c.toNat - 0x06 * f.h.toNat : Int) % 256 ∧
    (decimalAdjust a f).2.c = f.c := by
  obtain ⟨z,n,h,c⟩ := f
  cases subtracts
  have carries : (decimalAdjust a ⟨z,true,h,c⟩).2.c = c := by simp [decimalAdjust]
  refine ⟨?_,carries⟩
  have moved := toNat_lowered a 0x60 c
  have low := toNat_lowered (if !c then a else a - 0x60) 0x06 h
  have adjusted : (decimalAdjust a ⟨z,true,h,c⟩).1 =
      if !h then if !c then a else a - 0x60 else (if !c then a else a - 0x60) - 0x06 := by
    simp [decimalAdjust]
  rw [adjusted,low,moved]
  simp only [UInt8.reduceToNat]
  omega

theorem packed_sum (left : Packed x) (right : Packed y) (c : Bool) :
    let adjusted := decimalAdjust (add x y c).1 (add x y c).2
    Packed adjusted.1 ∧
      twoDigits adjusted.1 + 100 * adjusted.2.c.toNat = twoDigits x + twoDigits y + c.toNat := by
  intro adjusted
  have := c.toNat_le
  obtain ⟨highX,lowX⟩ := left
  obtain ⟨highY,lowY⟩ := right
  obtain ⟨value,carry,half,adds,-⟩ := sum_add x y c
  obtain ⟨digits,hundred⟩ := decimalAdjust_added (a := (add x y c).1) adds
  change adjusted.1.toNat = _ at digits
  change adjusted.2.c ↔ _ at hundred
  simp only [carry,half,value] at digits hundred
  simp only [Packed,twoDigits]
  -- Each digit is taken as it is or corrected by six, the upper one exactly if C is set.
  generalize adjusted.2.c = past at *
  cases past with
  | false =>
    rw [Bool.false_eq_true,false_iff] at hundred
    rw [if_neg hundred] at digits
    rw [Bool.toNat_false]
    split at digits <;> omega
  | true =>
    have hundred := hundred.mp rfl
    rw [if_pos hundred] at digits
    rw [Bool.toNat_true]
    split at digits <;> omega

theorem packed_difference (left : Packed x) (right : Packed y) (c : Bool) :
    let adjusted := decimalAdjust (sub x y c).1 (sub x y c).2
    Packed adjusted.1 ∧
      twoDigits adjusted.1 + twoDigits y + c.toNat = twoDigits x + 100 * adjusted.2.c.toNat := by
  intro adjusted
  have := c.toNat_le
  obtain ⟨highX,lowX⟩ := left
  obtain ⟨highY,lowY⟩ := right
  obtain ⟨value,borrow,half,subtracts,-⟩ := difference_sub x y c
  obtain ⟨digits,hundred⟩ := decimalAdjust_taken (a := (sub x y c).1) subtracts
  change (adjusted.1.toNat : Int) = _ at digits
  change adjusted.2.c = _ at hundred
  rw [value] at digits
  rw [hundred]
  simp only [Packed,twoDigits]
  generalize (sub x y c).2.c = taken at *
  generalize (sub x y c).2.h = ten at *
  -- A digit that has borrowed was raised by sixteen, where a decimal one is raised by ten.
  cases taken <;> cases ten <;>
    simp only [Bool.false_eq_true,true_iff,false_iff,Bool.toNat_true,Bool.toNat_false]
      at borrow half digits ⊢ <;>
    omega

end Alu

namespace Registers

/-- One byte of a decimal number: the accumulator takes the first of a pair, then the second by `op`,
and is corrected. -/
def decimalStep (op : AluOp) (r : Registers) (p : UInt8 × UInt8) : UInt8 × Registers :=
  let r := ({r with a := p.1}.accumulate op p.2).decimalAdjust
  (r.a,r)

theorem decimalStep_sum {p : UInt8 × UInt8} (packed : Packed p.1 ∧ Packed p.2) (r : Registers) :
    let done := decimalStep .adc r p
    Packed done.1 ∧ twoDigits done.1 + 100 * done.2.flags.c.toNat =
      twoDigits p.1 + twoDigits p.2 + r.flags.c.toNat :=
  Alu.packed_sum packed.1 packed.2 r.flags.c

theorem decimalStep_difference {p : UInt8 × UInt8} (packed : Packed p.1 ∧ Packed p.2) (r : Registers) :
    let done := decimalStep .sbc r p
    Packed done.1 ∧ twoDigits done.1 + twoDigits p.2 + r.flags.c.toNat =
      twoDigits p.1 + 100 * done.2.flags.c.toNat :=
  Alu.packed_difference packed.1 packed.2 r.flags.c

/-- Over `n` packed bytes, `ADC` and `DAA` by turns give the sum of two decimal numbers with the carry out
of it in C, and `SBC` and `DAA` their difference with the borrow in C. -/
theorem decimals_of_bytes {n : Nat} {xs ys : List UInt8} (left : xs.length = n) (right : ys.length = n)
    (packedX : ∀ b ∈ xs, Packed b) (packedY : ∀ b ∈ ys, Packed b) (r : Registers) :
    let sum := chain (decimalStep .adc) r (xs.zip ys)
    let difference := chain (decimalStep .sbc) r (xs.zip ys)
    (sum.1.length = n ∧ (∀ b ∈ sum.1, Packed b) ∧
      decimalNumber sum.1 + 100 ^ n * sum.2.flags.c.toNat =
        decimalNumber xs + decimalNumber ys + r.flags.c.toNat) ∧
    (difference.1.length = n ∧ (∀ b ∈ difference.1, Packed b) ∧
      (decimalNumber difference.1 : Int) - 100 ^ n * difference.2.flags.c.toNat =
        decimalNumber xs - decimalNumber ys - r.flags.c.toNat) := by
  intro sum difference
  have same := left.trans right.symm
  subst left
  have packed (p : UInt8 × UInt8) (member : p ∈ xs.zip ys) : Packed p.1 ∧ Packed p.2 := by
    obtain ⟨inX,inY⟩ := List.of_mem_zip member
    exact ⟨packedX p.1 inX,packedY p.2 inY⟩
  have added := account_zip (f := decimalStep .adc) same r 100 1 twoDigits (fun r => r.flags.c)
    fun r p member => by
      have := (decimalStep_sum (packed p member) r).2
      omega
  have taken := account_zip (f := decimalStep .sbc) same r 100 (-1) twoDigits (fun r => r.flags.c)
    fun r p member => by
      have := (decimalStep_difference (packed p member) r).2
      omega
  change (decimalNumber sum.1 : Int) + _ * (_ * (sum.2.flags.c.toNat : Int)) =
    decimalNumber xs + 1 * (decimalNumber ys + _) at added
  change (decimalNumber difference.1 : Int) + _ * (_ * (difference.2.flags.c.toNat : Int)) =
    decimalNumber xs + -1 * (decimalNumber ys + _) at taken
  have sumPacked := forall_chain (fun r p member => (decimalStep_sum (packed p member) r).1) r
  have differencePacked := forall_chain (fun r p member => (decimalStep_difference (packed p member) r).1) r
  refine ⟨⟨length_chain_zip same r,sumPacked,?_⟩,length_chain_zip same r,differencePacked,?_⟩
  · zify
    linear_combination added
  · linear_combination taken

/-- With the carry, 7205 and 8097 make 15303, and 7205 is 893 short of what is taken from it. -/
theorem decimals_of_bytes_hundreds :
    let r : Registers := {flags := {c := true}}
    let sum := chain (decimalStep .adc) r [(0x05,0x97),(0x72,0x80)]
    let difference := chain (decimalStep .sbc) r [(0x05,0x97),(0x72,0x80)]
    decimalNumber sum.1 + 10000 * sum.2.flags.c.toNat = 15303 ∧
      (decimalNumber difference.1 : Int) - 10000 * difference.2.flags.c.toNat = -893 := by
  intro r sum difference
  have packedX : ∀ b ∈ [0x05,0x72], Packed b := by
    rw [List.forall_mem_cons,List.forall_mem_singleton]
    decide
  have packedY : ∀ b ∈ [0x97,0x80], Packed b := by
    rw [List.forall_mem_cons,List.forall_mem_singleton]
    decide
  obtain ⟨⟨-,-,total⟩,⟨-,-,rest⟩⟩ := @decimals_of_bytes 2 _ _ rfl rfl packedX packedY r
  have left : decimalNumber [0x05,0x72] = 7205 := by decide
  have right : decimalNumber [0x97,0x80] = 8097 := by decide
  rw [left,right] at total rest
  exact ⟨total,rest⟩

end Registers
end Sm83
