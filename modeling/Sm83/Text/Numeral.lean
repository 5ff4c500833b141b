/-!
Natural numbers as texts: read in a given base and below a given limit, and printed in base sixteen.
Main statement: `readDigits_eq_ok_iff`, a numeral is accepted exactly if it is made of digits and its
value stays below the limit.
-/
namespace Sm83.Text

inductive NumeralError
  | empty | invalidDigit | tooLarge
deriving DecidableEq

def NumeralError.message : NumeralError → String
  | empty => "cannot parse integer from empty string"
  | invalidDigit => "invalid digit found in string"
  | tooLarge => "number too large to fit in target type"

/-- The value of a digit. Letters of either case stand for ten and more. -/
def digit? (base : Nat) (c : Char) : Option Nat :=
  let value :=
    if '0' ≤ c && c ≤ '9' then c.toNat - '0'.toNat
    else if 'a' ≤ c && c ≤ 'z' then c.toNat - 'a'.toNat + 10
    else if 'A' ≤ c && c ≤ 'Z' then c.toNat - 'A'.toNat + 10
    else base
  if value < base then some value else none

/-- Reads digits on from the value of those before them. The first character that is wrong, or that
makes the value too large, decides on the error. -/
def readDigits (base limit : Nat) : Nat → List Char → Except NumeralError Nat
  | n,[] => .ok n
  | n,c :: cs =>
    match digit? base c with
    | none => .error .invalidDigit
    | some d =>
      if n * base + d < limit then readDigits base limit (n * base + d) cs else .error .tooLarge

def readNatural (base limit : Nat) : List Char → Except NumeralError Nat
  | [] => .error .empty
  | '+' :: c :: cs => readDigits base limit 0 (c :: cs)
  | cs => readDigits base limit 0 cs

def digitsValue (base : Nat) : Nat → List Char → Option Nat
  | n,[] => some n
  | n,c :: cs => (digit? base c).bind fun d => digitsValue base (n * base + d) cs

private theorem le_of_digitsValue {base n v : Nat} {cs : List Char} (h : digitsValue base n cs = some v)
    (positive : 0 < base) : n ≤ v := by
  induction cs generalizing n with
  | nil => simp only [digitsValue,Option.some.injEq] at h; omega
  | cons c cs ih =>
    obtain ⟨d,_,h⟩ := Option.bind_eq_some_iff.mp h
    have := ih h
    have := Nat.le_mul_of_pos_right n positive
    omega

theorem readDigits_eq_ok_iff {base limit n v : Nat} {cs : List Char} (positive : 0 < base)
    (small : n < limit) :
    readDigits base limit n cs = .ok v ↔ digitsValue base n cs = some v ∧ v < limit := by
  induction cs generalizing n with
  | nil =>
    simp only [readDigits,digitsValue,Except.ok.injEq,Option.some.injEq]
    exact ⟨fun h => ⟨h,h ▸ small⟩,And.left⟩
  | cons c cs ih =>
    simp only [readDigits,digitsValue]
    cases digit? base c with
    | none => simp
    | some d =>
      simp only [Option.bind_some]
      by_cases fits : n * base + d < limit
      · rw [if_pos fits,ih fits]
      · rw [if_neg fits]
        simp only [reduceCtorEq,false_iff,not_and]
        intro h
        have := le_of_digitsValue h positive
        omega

-- Zeros fill the width. A number too long for it is written in full.

def lowerHex (width n : Nat) : String := .ofList ((Nat.toDigits 16 n).leftpad width '0')

def upperHex (width n : Nat) : String :=
  .ofList (((Nat.toDigits 16 n).map Char.toUpper).leftpad width '0')

def hexBytes (bytes : List UInt8) : String := .join (bytes.map fun b => lowerHex 2 b.toNat)

end Sm83.Text
