import Mathlib.Data.List.Basic
import Mathlib.Data.Nat.Digits.Defs
import Mathlib.Tactic.LinearCombination
import Sm83.Proofs.Alu

/-!
Numbers of any length, worked on a byte at a time with the carry handed on. An account of one byte is
an account of the whole number (`account_chain`), and so are the sums and differences of bytes those of
numbers: `sums_of_bytes`.
-/
namespace Sm83

def chain {σ α : Type} (f : σ → α → UInt8 × σ) : σ → List α → List UInt8 × σ
  | s,[] => ([],s)
  | s,x :: xs =>
    let (b,next) := f s x
    let (bs,last) := chain f next xs
    (b :: bs,last)

/-- The number that bytes make up, the least significant first. -/
def number (bytes : List UInt8) : Nat := Nat.ofDigits 256 (bytes.map UInt8.toNat)

section Chain
variable {σ α : Type} {f : σ → α → UInt8 × σ}

theorem length_chain (s : σ) (items : List α) : (chain f s items).1.length = items.length := by
  induction items generalizing s with
  | nil => rfl
  | cons x items ih => exact congrArg (· + 1) (ih (f s x).2)

theorem chain_append (s : σ) (first second : List α) : chain f s (first ++ second) =
    ((chain f s first).1 ++ (chain f (chain f s first).2 second).1,
      (chain f (chain f s first).2 second).2) := by
  induction first generalizing s with
  | nil => rfl
  | cons x first ih =>
    simp only [List.cons_append,chain]
    rw [ih]

theorem forall_chain {p : UInt8 → Prop} {items : List α} (each : ∀ s, ∀ x ∈ items, p (f s x).1) (s : σ) :
    ∀ b ∈ (chain f s items).1, p b := by
  induction items generalizing s with
  | nil => exact fun b member => nomatch member
  | cons x items ih =>
    intro b member
    rcases List.mem_cons.mp member with rfl | later
    · exact each s x List.mem_cons_self
    · exact ih (fun s y member => each s y (List.mem_cons_of_mem x member)) (f s x).2 b later

/-- If every item adds its two values and the carry, or takes the second value and the carry from the
first, then so does the whole chain with the two numbers that the values are digits of. -/
theorem account_chain (base : Nat) (k : Int) (value : UInt8 → Nat) (left right : α → Nat)
    (carry : σ → Bool) {items : List α}
    (account : ∀ s, ∀ x ∈ items, (value (f s x).1 : Int) + base * (k * (carry (f s x).2).toNat) =
      left x + k * (right x + (carry s).toNat)) (s : σ) :
    ((Nat.ofDigits base ((chain f s items).1.map value) : Nat) : Int) +
        base ^ items.length * (k * (carry (chain f s items).2).toNat) =
      (Nat.ofDigits base (items.map left) : Nat) +
        k * ((Nat.ofDigits base (items.map right) : Nat) + (carry s).toNat) := by
  induction items generalizing s with
  | nil => simp [chain]
  | cons x items ih =>
    have here := account s x List.mem_cons_self
    have rest := ih (fun s y member => account s y (List.mem_cons_of_mem x member)) (f s x).2
    simp only [chain,List.map_cons,Nat.ofDigits_cons,List.length_cons,pow_succ,Nat.cast_add,Nat.cast_mul]
    linear_combination here + base * rest

section Zip
variable {f : σ → UInt8 × UInt8 → UInt8 × σ} {xs ys : List UInt8} (same : xs.length = ys.length) (s : σ)
include same

theorem length_chain_zip : (chain f s (xs.zip ys)).1.length = xs.length := by
  rw [length_chain,List.length_zip,same,Nat.min_self]

private theorem chain_zip_concat (x y : UInt8) : (chain f s ((xs ++ [x]).zip (ys ++ [y]))).2 =
    (f (chain f s (xs.zip ys)).2 (x,y)).2 := by
  rw [List.zip_append same,chain_append]
  rfl

theorem account_zip (base : Nat) (k : Int) (value : UInt8 → Nat) (carry : σ → Bool)
    (account : ∀ s, ∀ p ∈ xs.zip ys, (value (f s p).1 : Int) + base * (k * (carry (f s p).2).toNat) =
      value p.1 + k * (value p.2 + (carry s).toNat)) :
    ((Nat.ofDigits base ((chain f s (xs.zip ys)).1.map value) : Nat) : Int) +
        base ^ xs.length * (k * (carry (chain f s (xs.zip ys)).2).toNat) =
      (Nat.ofDigits base (xs.map value) : Nat) +
        k * ((Nat.ofDigits base (ys.map value) : Nat) + (carry s).toNat) := by
  have whole := account_chain base k value _ _ carry account s
  have length : (xs.zip ys).length = xs.length := by rw [List.length_zip,same,Nat.min_self]
  have left : (xs.zip ys).map (fun p => value p.1) = xs.map value :=
    List.map_map.symm.trans (congrArg (List.map value) (List.map_fst_zip same.le))
  have right : (xs.zip ys).map (fun p => value p.2) = ys.map value :=
    List.map_map.symm.trans (congrArg (List.map value) (List.map_snd_zip same.ge))
  rwa [length,left,right] at whole

end Zip
end Chain

section Number

theorem number_lt (bytes : List UInt8) : number bytes < 256 ^ bytes.length := by
  have digits : ∀ d ∈ bytes.map UInt8.toNat, d < 256 := by
    intro d member
    obtain ⟨b,-,rfl⟩ := List.mem_map.mp member
    exact b.toNat_lt
  have bound := Nat.ofDigits_lt_base_pow_length (by decide) digits
  rwa [List.length_map] at bound

theorem number_concat (bytes : List UInt8) (b : UInt8) :
    number (bytes ++ [b]) = number bytes + 256 ^ bytes.length * b.toNat := by
  rw [number,List.map_append,Nat.ofDigits_append,List.length_map]
  simp [number]

/-- Bit 4 of the byte in place `n` is the lowest one above H. -/
private theorem two_pow_half (n : Nat) : 2 ^ (8 * (n + 1) - 4) = 256 ^ n * 16 := by
  have exponent : 8 * (n + 1) - 4 = 8 * n + 4 := by omega
  rw [exponent,pow_add,pow_mul]
  rfl

private theorem number_concat_mod_half (bytes : List UInt8) (b : UInt8) :
    number (bytes ++ [b]) % (256 ^ bytes.length * 16) =
      number bytes + 256 ^ bytes.length * (b.toNat % 16) := by
  have bound := number_lt bytes
  rw [number_concat,Nat.mod_mul,Nat.add_mul_mod_self_left,Nat.mod_eq_of_lt bound,
    Nat.add_mul_div_left _ _ (by positivity),Nat.div_eq_of_lt bound,Nat.zero_add]

theorem mul_le_add_mul_iff {p q r k : Nat} (small : r < p) : p * q ≤ r + p * k ↔ q ≤ k := by
  have quotient : (r + p * k) / p = k := by
    rw [Nat.add_mul_div_left _ _ (by omega),Nat.div_eq_of_lt small,Nat.zero_add]
  rw [Nat.mul_comm p q,← Nat.le_div_iff_mul_le (by omega),quotient]

end Number

namespace Alu

/-- The sum of two numbers: each pair of bytes is added with the carry of the pair before. -/
def addBytes (f : Flags) (xs ys : List UInt8) : List UInt8 × Flags :=
  chain (fun f (p : UInt8 × UInt8) => add p.1 p.2 f.c) f (xs.zip ys)

def subBytes (f : Flags) (xs ys : List UInt8) : List UInt8 × Flags :=
  chain (fun f (p : UInt8 × UInt8) => sub p.1 p.2 f.c) f (xs.zip ys)

private theorem exists_concat {xs ys : List UInt8} (same : xs.length = ys.length)
    (nonempty : 0 < xs.length) :
    ∃ as bs x y, xs = as ++ [x] ∧ ys = bs ++ [y] ∧ as.length = bs.length := by
  obtain ⟨as,x,rfl⟩ := xs.eq_nil_or_concat'.resolve_left (List.ne_nil_of_length_pos nonempty)
  obtain ⟨bs,y,rfl⟩ := ys.eq_nil_or_concat'.resolve_left (List.ne_nil_of_length_pos (same ▸ nonempty))
  exact ⟨as,bs,x,y,rfl,rfl,by simpa using same⟩

section Bytes
variable {xs ys : List UInt8} (same : xs.length = ys.length) (f : Flags)
include same

theorem length_addBytes : (addBytes f xs ys).1.length = xs.length := length_chain_zip same f

theorem length_subBytes : (subBytes f xs ys).1.length = xs.length := length_chain_zip same f

theorem number_addBytes : number (addBytes f xs ys).1 + 256 ^ xs.length * (addBytes f xs ys).2.c.toNat =
    number xs + number ys + f.c.toNat := by
  have account := account_zip (f := fun f p => add p.1 p.2 f.c) same f 256 1 UInt8.toNat Flags.c
    fun f p _ => by have := add_value p.1 p.2 f.c; omega
  change (number (addBytes f xs ys).1 : Int) + _ * (1 * ((addBytes f xs ys).2.c.toNat : Int)) =
    number xs + 1 * (number ys + _) at account
  zify
  linear_combination account

theorem number_subBytes :
    (number (subBytes f xs ys).1 : Int) - 256 ^ xs.length * (subBytes f xs ys).2.c.toNat =
      number xs - number ys - f.c.toNat := by
  have account := account_zip (f := fun f p => sub p.1 p.2 f.c) same f 256 (-1) UInt8.toNat Flags.c
    fun f p _ => by have := sub_value p.1 p.2 f.c; omega
  change (number (subBytes f xs ys).1 : Int) + _ * (-1 * ((subBytes f xs ys).2.c.toNat : Int)) =
    number xs + -1 * (number ys + _) at account
  linear_combination account

private theorem half_addBytes (x y : UInt8) : (addBytes f (xs ++ [x]) (ys ++ [y])).2.h ↔
    256 ^ xs.length * 16 ≤ number (xs ++ [x]) % (256 ^ xs.length * 16) +
      number (ys ++ [y]) % (256 ^ xs.length * 16) + f.c.toNat := by
  let c := (addBytes f xs ys).2.c
  have last : (addBytes f (xs ++ [x]) (ys ++ [y])).2 = (add x y c).2 :=
    chain_zip_concat same f x y
  have low := number_addBytes same f
  have small := number_lt (addBytes f xs ys).1
  rw [length_addBytes same] at small
  have total : number xs + 256 ^ xs.length * (x.toNat % 16) +
      (number ys + 256 ^ xs.length * (y.toNat % 16)) + f.c.toNat =
      number (addBytes f xs ys).1 + 256 ^ xs.length * (x.toNat % 16 + y.toNat % 16 + c.toNat) := by
    linear_combination low.symm
  rw [last,(sum_add x y c).half,number_concat_mod_half]
  conv_rhs => rw [same,number_concat_mod_half,← same,total]
  exact (mul_le_add_mul_iff small).symm

private theorem half_subBytes (x y : UInt8) : (subBytes f (xs ++ [x]) (ys ++ [y])).2.h ↔
    number (xs ++ [x]) % (256 ^ xs.length * 16) <
      number (ys ++ [y]) % (256 ^ xs.length * 16) + f.c.toNat := by
  let c := (subBytes f xs ys).2.c
  have last : (subBytes f (xs ++ [x]) (ys ++ [y])).2 = (sub x y c).2 :=
    chain_zip_concat same f x y
  have low : number (subBytes f xs ys).1 + number ys + f.c.toNat =
      number xs + 256 ^ xs.length * c.toNat := by
    zify
    linear_combination number_subBytes same f
  have small := number_lt (subBytes f xs ys).1
  rw [length_subBytes same] at small
  have borrows := mul_le_add_mul_iff (q := y.toNat % 16 + c.toNat) (k := x.toNat % 16) small
  rw [last,(difference_sub x y c).half,number_concat_mod_half]
  conv_rhs => rw [same,number_concat_mod_half,← same]
  rw [Nat.mul_add] at borrows
  omega

end Bytes

theorem addWord_eq (f : Flags) (x y : UInt16) :
    let low := add (lowByte x) (lowByte y) false
    let high := add (highByte x) (highByte y) low.2.c
    addWord f x y = (word high.1 low.1,{high.2 with z := f.z}) := by
  intro low high
  have lower := add_value (lowByte x) (lowByte y) false
  have upper := add_value (highByte x) (highByte y) low.2.c
  have half := (sum_add (highByte x) (highByte y) low.2.c).half
  have carry := (sum_add (highByte x) (highByte y) low.2.c).carry
  change low.1.toNat + 256 * low.2.c.toNat = _ at lower
  change high.1.toNat + 256 * high.2.c.toNat = _ at upper
  change high.2.h ↔ _ at half
  change high.2.c ↔ _ at carry
  simp only [toNat_highByte,toNat_lowByte,Bool.toNat_false] at lower upper half carry
  have := x.toNat_lt; have := y.toNat_lt
  have := low.1.toNat_lt; have := high.1.toNat_lt
  have sum : x + y = word high.1 low.1 := by
    apply UInt16.toNat_inj.mp
    rw [UInt16.toNat_add,toNat_word]
    omega
  have h : (addWord f x y).2.h = high.2.h := by
    rw [Bool.eq_iff_iff,half]
    simp only [addWord,decide_eq_true_eq]
    omega
  have c : (addWord f x y).2.c = high.2.c := by
    rw [Bool.eq_iff_iff,carry]
    simp only [addWord,decide_eq_true_eq]
    omega
  change (x + y,({z := f.z, h := (addWord f x y).2.h, c := (addWord f x y).2.c} : Flags)) = _
  rw [sum,h,c]
  rfl

/-- Chained over `n` bytes, `ADD` and `ADC` give the sum of two numbers with the carry out of it in C, and
`SUB` and `SBC` their difference with the borrow in C. H is the carry into bit `8 * n - 4`, or the borrow
from it. Sums of words are such sums of two bytes, but for Z. -/
theorem sums_of_bytes {n : Nat} {xs ys : List UInt8} (left : xs.length = n) (right : ys.length = n)
    (f : Flags) :
    let sum := addBytes f xs ys
    let difference := subBytes f xs ys
    let half := 2 ^ (8 * n - 4)
    (sum.1.length = n ∧ number sum.1 + 256 ^ n * sum.2.c.toNat = number xs + number ys + f.c.toNat ∧
      (0 < n → (sum.2.h ↔ half ≤ number xs % half + number ys % half + f.c.toNat))) ∧
    (difference.1.length = n ∧
      (number difference.1 : Int) - 256 ^ n * difference.2.c.toNat = number xs - number ys - f.c.toNat ∧
      (0 < n → (difference.2.h ↔ number xs % half < number ys % half + f.c.toNat))) ∧
    ∀ (r : Registers) (w : UInt16),
      let low := add (lowByte r.hl) (lowByte w) false
      let high := add (highByte r.hl) (highByte w) low.2.c
      r.addHL w = {r with h := high.1, l := low.1, flags := {high.2 with z := r.flags.z}} := by
  have same := left.trans right.symm
  subst left
  refine ⟨⟨length_addBytes same f,number_addBytes same f,?_⟩,
    ⟨length_subBytes same f,number_subBytes same f,?_⟩,?_⟩
  · intro nonempty
    obtain ⟨as,bs,x,y,rfl,rfl,even⟩ := exists_concat same nonempty
    rw [List.length_append,List.length_singleton,two_pow_half]
    exact half_addBytes even f x y
  · intro nonempty
    obtain ⟨as,bs,x,y,rfl,rfl,even⟩ := exists_concat same nonempty
    rw [List.length_append,List.length_singleton,two_pow_half]
    exact half_subBytes even f x y
  · intro r w low high
    have sum := addWord_eq r.flags r.hl w
    simp only [Registers.addHL,sum]
    rw [Registers.setHL,highByte_word,lowByte_word]

/-- 0x1000 and 0x0FFF with a carry: H tells of the carry into bit 12 and of the borrow from it. -/
theorem sums_of_bytes_brimming :
    let sum := addBytes {c := true} [0x00,0x10] [0xFF,0x0F]
    let difference := subBytes {c := true} [0x00,0x10] [0xFF,0x0F]
    number sum.1 = 0x2000 ∧ sum.2.h ∧ number difference.1 = 0 ∧ difference.2.h := by
  intro sum difference
  obtain ⟨⟨-,total,carries⟩,⟨-,rest,borrows⟩,-⟩ :=
    @sums_of_bytes 2 [0x00,0x10] [0xFF,0x0F] rfl rfl {c := true}
  have full : sum.2.c = false := by decide
  have enough : difference.2.c = false := by decide
  have left : number [0x00,0x10] = 0x1000 := by decide
  have right : number [0xFF,0x0F] = 0x0FFF := by decide
  rw [full,left,right] at total
  rw [enough,left,right] at rest
  exact ⟨total,(carries (by decide)).mpr (by decide),by simpa using rest,
    (borrows (by decide)).mpr (by decide)⟩

end Alu
end Sm83
