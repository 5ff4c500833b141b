import Mathlib.Algebra.Ring.Nat
import Mathlib.Data.List.Infix
import Sm83.Text.Utf8
import Sm83.Word

/-!
Bytes read as UTF-8 whatever they are. A byte below 0x80 is a character by itself, and no other sequence of
bytes gives such a character but perhaps NUL. Main statement: `suffix_lossy_iff`, text ends in plain ASCII as
its bytes do.
-/
namespace Sm83.Text.Utf8

/-- The characters of one byte, apart from NUL. -/
def isAscii (c : Char) : Bool := 0 < c.toNat && c.toNat < 0x80

private theorem isAscii_iff {c : Char} : isAscii c ↔ 0 < c.toNat ∧ c.toNat < 0x80 := by
  rw [isAscii,Bool.and_eq_true,decide_eq_true_eq,decide_eq_true_eq]

def byte (c : Char) : UInt8 := .ofNat c.toNat

private theorem toNat_byte {c : Char} (ascii : isAscii c) : (byte c).toNat = c.toNat := by
  have small : c.toNat < 128 := (isAscii_iff.mp ascii).2
  rw [byte,UInt8.toNat_ofNat']
  omega

private theorem byte_lt {c : Char} (ascii : isAscii c) : byte c < 0x80 := by
  rw [UInt8.lt_iff_toNat_lt,toNat_byte ascii]
  exact (isAscii_iff.mp ascii).2

private theorem lead_of_lt {b : UInt8} (ascii : b < 0x80) :
    lead b = some ⟨0,0x80,0xBF,b.toNat⟩ := if_pos ascii

/-- Even the least sequence that a first byte announces is past ASCII. -/
theorem lead_spec {b : UInt8} {l : Lead} (leads : lead b = some l) : 0x80 ≤ l.low ∧ l.high ≤ 0xBF ∧
    (l.count = 0 → b < 0x80 ∧ l.bits = b.toNat) ∧
      (l.count ≠ 0 → 0x80 ≤ (l.bits * 64 + l.low.toNat % 64) * 64 ^ (l.count - 1)) := by
  have all : ∀ b, (lead b).all fun l => decide (0x80 ≤ l.low ∧ l.high ≤ 0xBF ∧
      (l.count = 0 → b < 0x80 ∧ l.bits = b.toNat) ∧
        (l.count ≠ 0 → 0x80 ≤ (l.bits * 64 + l.low.toNat % 64) * 64 ^ (l.count - 1))) := by decide +kernel
  have here := all b
  rw [leads] at here
  exact of_decide_eq_true here

section Follow
variable {low high : UInt8} {bits n : Nat}

private theorem le_follow {bytes : List UInt8} {c : Char}
    (read : (follow low high bits n bytes).1 = some c) :
    ∃ v, c = Char.ofNat v ∧ bits * 64 ^ n ≤ v := by
  induction n generalizing low high bits bytes with
  | zero => exact ⟨bits,(Option.some.inj read).symm,by omega⟩
  | succ n ih =>
    cases bytes with
    | nil => cases read
    | cons b rest =>
      rw [follow] at read
      split at read
      · obtain ⟨v,char,le⟩ := ih read
        refine ⟨v,char,Nat.le_trans ?_ le⟩
        rw [Nat.pow_succ,Nat.mul_comm (64 ^ n),← Nat.mul_assoc]
        exact Nat.mul_le_mul_right _ (Nat.le_add_right _ _)
      · cases read

theorem follow_suffix (low high : UInt8) (bits n : Nat) (bytes : List UInt8) :
    (follow low high bits n bytes).2 <:+ bytes := by
  fun_induction follow low high bits n bytes with
  | case1 | case2 | case4 => exact List.suffix_refl _
  | case3 _ _ _ _ b rest _ ih => exact ih.trans (List.suffix_cons b rest)

/-- A sequence that has come to its end goes no further than a byte below 0x80. -/
private theorem follow_append {b : UInt8} (ascii : b < 0x80) (start : 0x80 ≤ low)
    (bytes rest : List UInt8) :
    follow low high bits n (bytes ++ b :: rest) =
      ((follow low high bits n bytes).1,(follow low high bits n bytes).2 ++ b :: rest) := by
  induction n generalizing low high bits bytes with
  | zero => rfl
  | succ n ih =>
    cases bytes with
    | nil =>
      have outside : ¬ low ≤ b := by
        rw [UInt8.le_iff_toNat_le] at start ⊢
        rw [UInt8.lt_iff_toNat_lt] at ascii
        omega
      simp [follow,outside]
    | cons d bytes =>
      rw [List.cons_append,follow,follow]
      split
      · exact ih (by decide) bytes
      · rfl

end Follow

theorem toNat_ofNat {v : Nat} (valid : v.isValidChar) : (Char.ofNat v).toNat = v := by
  rw [Char.ofNat,dif_pos valid]
  rfl

private theorem not_isAscii_ofNat {v : Nat} (large : 0x80 ≤ v) : ¬ isAscii (Char.ofNat v) := by
  by_cases valid : v.isValidChar
  · rw [isAscii_iff,toNat_ofNat valid]
    omega
  · rw [Char.ofNat,dif_neg valid]
    decide

private theorem not_isAscii_of_follow {b : UInt8} {l : Lead} {bytes : List UInt8} {c : Char}
    (leads : lead b = some l) (long : l.count ≠ 0)
    (read : (follow l.low l.high l.bits l.count bytes).1 = some c) : ¬ isAscii c := by
  obtain ⟨low,high,-,least⟩ := lead_spec leads
  have start : 128 ≤ l.low.toNat := low
  have stop : l.high.toNat ≤ 191 := high
  obtain ⟨n,count⟩ := Nat.exists_eq_succ_of_ne_zero long
  have least := least long
  rw [count] at read least
  cases bytes with
  | nil => cases read
  | cons d rest =>
    rw [follow] at read
    split at read
    · rename_i inside
      obtain ⟨v,rfl,le⟩ := le_follow read
      simp only [Bool.and_eq_true,decide_eq_true_eq,UInt8.le_iff_toNat_le] at inside
      have digit : l.low.toNat % 64 ≤ d.toNat % 64 := by omega
      apply not_isAscii_ofNat
      -- the second byte is where the least code points of a length are told from the overlong ones
      calc 0x80
        _ ≤ (l.bits * 64 + l.low.toNat % 64) * 64 ^ n := least
        _ ≤ (l.bits * 64 + d.toNat % 64) * 64 ^ n := Nat.mul_le_mul_right _ (Nat.add_le_add_left digit _)
        _ ≤ v := le
    · cases read

section Chars
variable {b : UInt8} {l : Lead} {rest : List UInt8}

private theorem chars_of_none (leads : lead b = none) : chars (b :: rest) = none :: chars rest := by
  rw [chars,leads]

private theorem chars_of_some (leads : lead b = some l) : chars (b :: rest) =
    (follow l.low l.high l.bits l.count rest).1 :: chars (follow l.low l.high l.bits l.count rest).2 := by
  rw [chars,leads]

private theorem chars_of_lt (ascii : b < 0x80) :
    chars (b :: rest) = some (Char.ofNat b.toNat) :: chars rest :=
  chars_of_some (lead_of_lt ascii)

private theorem eq_of_chars_cons {c : Char} {cs : List (Option Char)} (ascii : isAscii c)
    (read : chars (b :: rest) = some c :: cs) : b = byte c ∧ chars rest = cs := by
  have small : b < 0x80 := by
    cases leads : lead b with
    | none =>
      rw [chars_of_none leads] at read
      cases read
    | some l =>
      rw [chars_of_some leads] at read
      by_cases long : l.count ≠ 0
      · exact absurd ascii (not_isAscii_of_follow leads long (List.cons.inj read).1)
      · exact ((lead_spec leads).2.2.1 (not_not.mp long)).1
  rw [chars_of_lt small] at read
  obtain ⟨char,next⟩ := List.cons.inj read
  have valid : b.toNat.isValidChar := .inl (Nat.lt_trans b.toNat_lt (by decide))
  refine ⟨?_,next⟩
  rw [byte,← Option.some.inj char,toNat_ofNat valid,UInt8.ofNat_toNat]

private theorem eq_of_chars_eq {text : List Char} (ascii : ∀ c ∈ text, isAscii c) {bytes : List UInt8}
    (read : chars bytes = text.map some) : bytes = text.map byte := by
  induction text generalizing bytes with
  | nil =>
    cases bytes with
    | nil => rfl
    | cons b rest => cases leads : lead b with
      | none => cases (chars_of_none leads).symm.trans read
      | some l => cases (chars_of_some leads).symm.trans read
  | cons c text ih =>
    cases bytes with
    | nil =>
      rw [chars] at read
      cases read
    | cons b rest =>
      obtain ⟨same,next⟩ := eq_of_chars_cons (ascii c List.mem_cons_self) read
      rw [same,List.map_cons,ih (fun d member => ascii d (List.mem_cons_of_mem c member)) next]

private theorem chars_byte_cons {c : Char} (ascii : isAscii c) :
    chars (byte c :: rest) = some c :: chars rest := by
  rw [chars_of_lt (byte_lt ascii),toNat_byte ascii,Char.ofNat_toNat]

private theorem chars_byte {text : List Char} (ascii : ∀ c ∈ text, isAscii c) :
    chars (text.map byte) = text.map some := by
  induction text with
  | nil => rw [List.map_nil,chars,List.map_nil]
  | cons c text ih =>
    rw [List.map_cons,chars_byte_cons (ascii c List.mem_cons_self),List.map_cons,
      ih fun d member => ascii d (List.mem_cons_of_mem c member)]

private theorem exists_suffix_of_chars {bytes : List UInt8} {cs : List (Option Char)}
    (suffix : cs <:+ chars bytes) : ∃ rest, rest <:+ bytes ∧ chars rest = cs := by
  fun_induction chars bytes with
  | case1 => exact ⟨[],List.suffix_refl _,by rw [chars,List.suffix_nil.mp suffix]⟩
  | case2 b rest leads ih =>
    rcases List.suffix_cons_iff.mp suffix with whole | inner
    · exact ⟨b :: rest,List.suffix_refl _,(chars_of_none leads).trans whole.symm⟩
    · obtain ⟨last,short,same⟩ := ih inner
      exact ⟨last,short.trans (List.suffix_cons b rest),same⟩
  | case3 b rest l leads next ih =>
    rcases List.suffix_cons_iff.mp suffix with whole | inner
    · exact ⟨b :: rest,List.suffix_refl _,(chars_of_some leads).trans whole.symm⟩
    · obtain ⟨last,short,same⟩ := ih inner
      have followed := follow_suffix l.low l.high l.bits l.count rest
      exact ⟨last,(short.trans followed).trans (List.suffix_cons b rest),same⟩

theorem chars_append (ascii : b < 0x80) (front : List UInt8) :
    chars (front ++ b :: rest) = chars front ++ chars (b :: rest) := by
  fun_induction chars front with
  | case1 => rfl
  | case2 d front leads ih => rw [List.cons_append,chars_of_none leads,ih,List.cons_append]
  | case3 d front l leads next ih =>
    rw [List.cons_append,chars_of_some leads,follow_append ascii (lead_spec leads).1,ih,List.cons_append]

theorem suffix_lossy_iff {text : List Char} (ascii : ∀ c ∈ text, isAscii c) (bytes : List UInt8) :
    text <:+ (lossy bytes).toList ↔ text.map byte <:+ bytes := by
  rw [lossy,String.toList_ofList,List.suffix_map_iff]
  constructor
  · rintro ⟨cs,suffix,read⟩
    -- the replacement character is not among those of the text
    have plain : text.map some = cs := by
      rw [read,List.map_map]
      refine (List.map_congr_left fun c member => ?_).trans cs.map_id
      cases c with
      | some c => rfl
      | none =>
        have replaced := ascii '\uFFFD' (read ▸ List.mem_map_of_mem member)
        exact absurd replaced (by decide)
    obtain ⟨last,short,same⟩ := exists_suffix_of_chars suffix
    rwa [eq_of_chars_eq ascii (same.trans plain.symm)] at short
  · rintro ⟨front,rfl⟩
    have ends : text.map some <:+ chars (front ++ text.map byte) := by
      rw [← chars_byte ascii]
      cases text with
      | nil => exact (chars_byte ascii) ▸ List.nil_suffix
      | cons c text =>
        rw [List.map_cons,chars_append (byte_lt (ascii c List.mem_cons_self)) front]
        exact List.suffix_append _ _
    have same : text = (text.map some).map fun c => c.getD '\uFFFD' := by
      rw [List.map_map]
      exact text.map_id.symm
    exact ⟨text.map some,ends,same⟩

end Chars

end Sm83.Text.Utf8
