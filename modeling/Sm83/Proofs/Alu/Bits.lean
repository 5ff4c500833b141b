import Sm83.Proofs.Alu.Shift

/-!
Shifts and single bits. The shifts are told by where each bit of the result comes from (`shifted_shift`),
and the operations on one bit by what they leave of all eight.
-/
namespace Sm83

namespace ShiftOp

/-- Bit `i` of what a shift makes of the bits `b` and of C. -/
def moved (op : ShiftOp) (c : Bool) (b : Nat → Bool) (i : Nat) : Bool :=
  match op with
  | rlc => if i = 0 then b 7 else b (i - 1)
  | rl => if i = 0 then c else b (i - 1)
  | sla => if i = 0 then false else b (i - 1)
  | rrc => if i = 7 then b 0 else b (i + 1)
  | rr => if i = 7 then c else b (i + 1)
  | sra => if i = 7 then b 7 else b (i + 1)
  | srl => if i = 7 then false else b (i + 1)
  | swap => b ((i + 4) % 8)

def dropped (b : Nat → Bool) : ShiftOp → Bool
  | rlc | rl | sla => b 7
  | rrc | rr | sra | srl => b 0
  | swap => false

end ShiftOp

namespace Alu

structure Shifted (op : ShiftOp) (c : Bool) (v r : UInt8) (f : Flags) : Prop where
  value : ∀ i < 8, r.toNat.testBit i = op.moved c v.toNat.testBit i
  carry : f.c = op.dropped v.toNat.testBit
  rest : f.n = false ∧ f.h = false
  zero : f.z ↔ r = 0

section Byte
variable (v : UInt8) {i : Nat}

private theorem testBit_of_ge (outside : 8 ≤ i) : v.toNat.testBit i = false := by
  apply Nat.testBit_lt_two_pow
  exact Nat.lt_of_lt_of_le v.toNat_lt (Nat.pow_le_pow_right (by decide) outside)

private theorem testBit_shiftLeft {k : UInt8} (small : k.toNat < 8) (inside : i < 8) :
    (v <<< k).toNat.testBit i = (decide (k.toNat ≤ i) && v.toNat.testBit (i - k.toNat)) := by
  rw [UInt8.toNat_shiftLeft,Nat.mod_eq_of_lt small,Nat.testBit_mod_two_pow,Nat.testBit_shiftLeft]
  simp [inside]

private theorem testBit_shiftRight {k : UInt8} (small : k.toNat < 8) :
    (v >>> k).toNat.testBit i = v.toNat.testBit (k.toNat + i) := by
  rw [UInt8.toNat_shiftRight,Nat.mod_eq_of_lt small,Nat.testBit_shiftRight]

private theorem testBit_up {x : UInt8} {bit : Bool} (comes : x.toNat.testBit i = (decide (i = 0) && bit))
    (inside : i < 8) :
    (v <<< 1 ||| x).toNat.testBit i = if i = 0 then bit else v.toNat.testBit (i - 1) := by
  rw [UInt8.toNat_or,Nat.testBit_or,testBit_shiftLeft v (by decide) inside,comes]
  cases i <;> simp

private theorem testBit_down {x : UInt8} {bit : Bool}
    (comes : x.toNat.testBit i = (decide (i = 7) && bit)) :
    (v >>> 1 ||| x).toNat.testBit i = if i = 7 then bit else v.toNat.testBit (i + 1) := by
  rw [UInt8.toNat_or,Nat.testBit_or,testBit_shiftRight v (by decide),comes]
  by_cases top : i = 7
  · simp [top,testBit_of_ge v (Nat.le_refl 8)]
  · simp [top,Nat.add_comm]

theorem testBit_moveBits (op : ShiftOp) (c : Bool) (inside : i < 8) :
    (moveBits op c v).1.toNat.testBit i = op.moved c v.toNat.testBit i := by
  have carry : (if c then 1 else 0 : UInt8).toNat = c.toNat := by cases c <;> rfl
  have brought (b : Nat → Bool) : (decide (7 ≤ i) && b (i - 7)) = (decide (i = 7) && b 0) := by
    by_cases top : i = 7
    · simp [top]
    · have below : ¬7 ≤ i := by omega
      simp [top,below]
  cases op with
  | rlc =>
    refine testBit_up v ?_ inside
    rw [testBit_shiftRight v (by decide)]
    by_cases low : i = 0
    · simp [low]
    · have outside : 8 ≤ 7 + i := by omega
      simp [low,testBit_of_ge v outside]
  | rl =>
    refine testBit_up v ?_ inside
    rw [carry,Nat.testBit_bool_toNat]
  | sla =>
    have same : v <<< 1 = v <<< 1 ||| 0 := UInt8.or_zero.symm
    change (v <<< 1).toNat.testBit i = _
    rw [same]
    exact testBit_up v (by simp) inside
  | rrc =>
    refine testBit_down v ?_
    rw [testBit_shiftLeft v (by decide) inside]
    exact brought v.toNat.testBit
  | rr =>
    refine testBit_down v ?_
    rw [toNat_top,Nat.mul_comm,Nat.testBit_mul_two_pow,brought,Nat.testBit_bool_toNat]
    simp
  | sra =>
    refine testBit_down v ?_
    rw [toNat_and_single v (i := 7) rfl,Nat.testBit_mul_two_pow,brought,Nat.testBit_bool_toNat]
    simp
  | srl =>
    have same : v >>> 1 = v >>> 1 ||| 0 := UInt8.or_zero.symm
    change (v >>> 1).toNat.testBit i = _
    rw [same]
    exact testBit_down v (by simp)
  | swap =>
    change (v <<< 4 ||| v >>> 4).toNat.testBit i = v.toNat.testBit ((i + 4) % 8)
    rw [UInt8.toNat_or,Nat.testBit_or,testBit_shiftLeft v (by decide) inside,
      testBit_shiftRight v (by decide)]
    change (decide (4 ≤ i) && v.toNat.testBit (i - 4) || v.toNat.testBit (4 + i)) = _
    by_cases upper : 4 ≤ i
    · have turned : (i + 4) % 8 = i - 4 := by omega
      have outside : 8 ≤ 4 + i := by omega
      simp [upper,turned,testBit_of_ge v outside]
    · have turned : (i + 4) % 8 = 4 + i := by omega
      simp [upper,turned]

theorem dropped_moveBits (op : ShiftOp) (c : Bool) :
    (moveBits op c v).2 = op.dropped v.toNat.testBit := by
  cases op with
  | swap => rfl
  | rlc | rl | sla => exact and_single_bne v (i := 7) rfl
  | rrc | rr | sra | srl => exact and_single_bne v (i := 0) rfl

theorem shifted_shift (op : ShiftOp) (f : Flags) :
    Shifted op f.c v (shift op f .ofResult v).1 (shift op f .ofResult v).2 where
  value i inside := testBit_moveBits v op f.c inside
  carry := dropped_moveBits v op f.c
  rest := ⟨rfl,rfl⟩
  zero := by simp [shift]

variable (b : Fin 8)

private theorem toNat_bitMask : (bitMask b).toNat = 2 ^ b.val := by
  revert b
  decide

theorem testBit_eq (f : Flags) :
    testBit f b v = {z := !v.toNat.testBit b, n := false, h := true, c := f.c} := by
  rw [testBit,← and_single_bne v (toNat_bitMask b),bne,Bool.not_not]

theorem testBit_setBit : (setBit b v).toNat.testBit i = (decide (i = b) || v.toNat.testBit i) := by
  rw [setBit,UInt8.toNat_or,toNat_bitMask,Nat.testBit_or,Nat.testBit_two_pow,Bool.or_comm]
  simp only [eq_comm]

theorem testBit_resetBit (inside : i < 8) :
    (resetBit b v).toNat.testBit i = (!decide (i = b) && v.toNat.testBit i) := by
  have small : 2 ^ b.val < 2 ^ 8 := Nat.pow_lt_pow_right (by decide) b.isLt
  have mask : (~~~(bitMask b)).toNat = 2 ^ 8 - (2 ^ b.val + 1) := by
    rw [UInt8.toNat_not,toNat_bitMask,Nat.sub_sub,Nat.add_comm 1]
    rfl
  rw [resetBit,UInt8.toNat_and,mask,Nat.testBit_and,Nat.testBit_two_pow_sub_succ small,
    Nat.testBit_two_pow,Bool.and_comm]
  simp [inside,eq_comm]

end Byte

private theorem eq_of_testBit {x y : UInt8} (same : ∀ i < 8, x.toNat.testBit i = y.toNat.testBit i) :
    x = y := by
  apply UInt8.toNat_inj.mp
  apply Nat.eq_of_testBit_eq
  intro i
  by_cases inside : i < 8
  · exact same i inside
  · rw [testBit_of_ge x (Nat.le_of_not_lt inside),testBit_of_ge y (Nat.le_of_not_lt inside)]

theorem Shifted.unique {op : ShiftOp} {c : Bool} {v r r' : UInt8} {f f' : Flags}
    (one : Shifted op c v r f) (other : Shifted op c v r' f') : r = r' ∧ f = f' := by
  have result : r = r' := eq_of_testBit fun i inside =>
    (one.value i inside).trans (other.value i inside).symm
  have zero : f.z = f'.z := by rw [Bool.eq_iff_iff,one.zero,other.zero,result]
  have carry : f.c = f'.c := one.carry.trans other.carry.symm
  have adds : f.n = f'.n := one.rest.1.trans other.rest.1.symm
  have half : f.h = f'.h := one.rest.2.trans other.rest.2.symm
  refine ⟨result,?_⟩
  cases f
  cases f'
  rw [Flags.mk.injEq]
  exact ⟨zero,adds,half,carry⟩

end Alu
end Sm83
