import Mathlib.Data.List.Induction
import Mathlib.Tactic.IntervalCases
import Sm83.Text.Numeral

/-!
What numerals are, apart from how they are read. Main statements: `readNatural_eq_ok_iff`, reading
accepts exactly the numerals below the limit, with or without a plus sign before them, and
`numeral_lowerHex`, `numeral_upperHex` and `numeral_toDigits` on the numerals that are printed.
-/
namespace Sm83.Text

/-- A digit of a base up to sixteen. Its letters may be of either case. -/
def IsDigit (base : Nat) (c : Char) (d : Nat) : Prop :=
  d < base ∧ (c = d.digitChar ∨ c = d.digitChar.toUpper)

/-- One or more digits, the highest first, and the number that they stand for. -/
inductive Numeral (base : Nat) : List Char → Nat → Prop
  | digit {c : Char} {d : Nat} (is : IsDigit base c d) : Numeral base [c] d
  | append {cs : List Char} {n : Nat} {c : Char} {d : Nat} (front : Numeral base cs n)
      (is : IsDigit base c d) : Numeral base (cs ++ [c]) (n * base + d)

section
variable {base limit : Nat} {c : Char} {cs : List Char} {d n v : Nat}

theorem digit?_of_isDigit (small : base ≤ 16) (is : IsDigit base c d) : digit? base c = some d := by
  obtain ⟨below,rfl | rfl⟩ := is
  all_goals
    have bound : d < 16 := by omega
    interval_cases d <;> simp [digit?,Nat.digitChar,below]

private theorem isDigit_of_digit? (small : base ≤ 16) (read : digit? base c = some d) :
    IsDigit base c d := by
  -- Of the characters up to `f` a table settles the matter; the letters behind it stand for too much.
  have table : ∀ k : Fin 103, ∀ d ∈ digit? 16 (Char.ofNat k),
      Char.ofNat k = d.digitChar ∨ Char.ofNat k = d.digitChar.toUpper := by decide
  obtain ⟨below,low,wide⟩ : d < base ∧ c.toNat < 103 ∧ digit? 16 c = some d := by
    simp only [digit?,Bool.and_eq_true,decide_eq_true_eq,Option.ite_none_right_eq_some,Option.some.injEq,
      Char.le_def,UInt32.le_iff_toNat_le,Char.reduceVal,UInt32.reduceToNat,Char.toNat] at read ⊢
    grind
  rw [← Char.ofNat_toNat c] at wide ⊢
  exact ⟨below,table ⟨c.toNat,low⟩ d wide⟩

theorem digit?_eq_some_iff (small : base ≤ 16) : digit? base c = some d ↔ IsDigit base c d :=
  ⟨isDigit_of_digit? small,digit?_of_isDigit small⟩

private theorem digitsValue_append (front back : List Char) :
    digitsValue base n (front ++ back) = (digitsValue base n front).bind (digitsValue base · back) := by
  induction front generalizing n with
  | nil => rfl
  | cons c front ih =>
    simp only [List.cons_append,digitsValue,ih]
    cases digit? base c <;> rfl

theorem digitsValue_of_numeral (small : base ≤ 16) (numeral : Numeral base cs v) :
    digitsValue base 0 cs = some v := by
  induction numeral with
  | digit is => simp [digitsValue,digit?_of_isDigit small is]
  | append front is ih => simp [digitsValue_append,ih,digitsValue,digit?_of_isDigit small is]

theorem numeral_of_digitsValue (small : base ≤ 16) (filled : cs ≠ [])
    (value : digitsValue base 0 cs = some v) : Numeral base cs v := by
  induction cs using List.reverseRecOn generalizing v with
  | nil => exact absurd rfl filled
  | append_singleton front c ih =>
    rw [digitsValue_append] at value
    obtain ⟨n,before,last⟩ := Option.bind_eq_some_iff.mp value
    obtain ⟨d,read,rfl⟩ : ∃ d, digit? base c = some d ∧ n * base + d = v := by
      simpa [digitsValue,Option.bind_eq_some_iff] using last
    have is := isDigit_of_digit? small read
    by_cases alone : front = []
    · subst alone
      cases before
      rw [Nat.zero_mul,Nat.zero_add]
      exact .digit is
    · exact .append (ih alone before) is

theorem Numeral.digits (numeral : Numeral base cs n) : ∀ c ∈ cs, ∃ d, IsDigit base c d := by
  induction numeral with
  | digit is => simpa using ⟨_,is⟩
  | append front is ih =>
    intro c member
    rcases List.mem_append.mp member with before | last
    · exact ih c before
    · cases List.mem_singleton.mp last
      exact ⟨_,is⟩

private theorem Numeral.ne_nil (numeral : Numeral base cs n) : cs ≠ [] := by
  cases numeral <;> simp

private theorem readDigits_eq_ok_iff_numeral (small : base ≤ 16) (positive : 0 < base) (room : 0 < limit)
    (filled : cs ≠ []) : readDigits base limit 0 cs = .ok v ↔ Numeral base cs v ∧ v < limit := by
  rw [readDigits_eq_ok_iff positive room]
  refine and_congr_left' ⟨numeral_of_digitsValue small filled,digitsValue_of_numeral small⟩

private theorem not_isDigit_plus (small : base ≤ 16) : ¬IsDigit base '+' d := by
  rw [← digit?_eq_some_iff small]
  simp [digit?]

theorem readNatural_eq_ok_iff (small : base ≤ 16) (positive : 0 < base) (room : 0 < limit) :
    readNatural base limit cs = .ok v ↔
      ∃ sign digits, sign ∈ [[],['+']] ∧ cs = sign ++ digits ∧ Numeral base digits v ∧ v < limit := by
  have read {digits : List Char} (filled : digits ≠ []) :
      readDigits base limit 0 digits = .ok v ↔ Numeral base digits v ∧ v < limit :=
    readDigits_eq_ok_iff_numeral small positive room filled
  constructor
  · intro accepted
    unfold readNatural at accepted
    split at accepted
    · cases accepted
    · exact ⟨['+'],_,by simp,rfl,(read (by simp)).mp accepted⟩
    · rename_i filled unsigned
      exact ⟨[],cs,by simp,rfl,(read filled).mp accepted⟩
  · rintro ⟨sign,digits,signed,rfl,numeral,below⟩
    have accepted := (read numeral.ne_nil).mpr ⟨numeral,below⟩
    obtain ⟨c,rest,rfl⟩ := List.exists_cons_of_ne_nil numeral.ne_nil
    simp only [List.mem_cons,List.not_mem_nil,or_false] at signed
    rcases signed with rfl | rfl
    · have other : c ≠ '+' := by
        rintro rfl
        obtain ⟨d,is⟩ := numeral.digits '+' List.mem_cons_self
        exact not_isDigit_plus small is
      rw [List.nil_append,readNatural]
      · exact accepted
      · simp
      · simp [other]
    · exact accepted

private theorem Numeral.zero_cons (positive : 0 < base) (numeral : Numeral base cs n) :
    Numeral base ('0' :: cs) n := by
  have zero : IsDigit base '0' 0 := ⟨positive,.inl rfl⟩
  induction numeral with
  | digit is =>
    have longer := Numeral.append (.digit zero) is
    rwa [Nat.zero_mul,Nat.zero_add] at longer
  | append front is ih => exact .append ih is

theorem Numeral.leftpad (positive : 0 < base) (width : Nat) (numeral : Numeral base cs n) :
    Numeral base (cs.leftpad width '0') n := by
  rw [List.leftpad]
  induction width - cs.length with
  | zero => exact numeral
  | succ k ih => exact ih.zero_cons positive

private theorem Numeral.map_toUpper (small : base ≤ 16) (numeral : Numeral base cs n) :
    Numeral base (cs.map Char.toUpper) n := by
  have raised : ∀ d : Fin 16, d.val.digitChar.toUpper.toUpper = d.val.digitChar.toUpper := by decide
  have upper {c d} (is : IsDigit base c d) : IsDigit base c.toUpper d := by
    obtain ⟨below,rfl | rfl⟩ := is
    · exact ⟨below,.inr rfl⟩
    · exact ⟨below,.inr (raised ⟨d,by omega⟩)⟩
  induction numeral with
  | digit is => exact .digit (upper is)
  | append front is ih =>
    rw [List.map_append]
    exact .append ih (upper is)

theorem numeral_toDigits (wide : 1 < base) (n : Nat) : Numeral base (Nat.toDigits base n) n := by
  induction n using Nat.strongRecOn with
  | ind n ih =>
    rw [Nat.toDigits_eq_if wide]
    split
    · rename_i below
      exact .digit ⟨below,.inl rfl⟩
    · rename_i reaches
      have smaller : n / base < n := Nat.div_lt_self (by omega) wide
      have made := Numeral.append (ih _ smaller) ⟨Nat.mod_lt n (by omega),.inl rfl⟩
      rwa [Nat.div_add_mod'] at made

end

theorem numeral_lowerHex (width n : Nat) : Numeral 16 (lowerHex width n).toList n := by
  rw [lowerHex,String.toList_ofList]
  exact (numeral_toDigits (by decide) n).leftpad (by decide) width

theorem numeral_upperHex (width n : Nat) : Numeral 16 (upperHex width n).toList n := by
  rw [upperHex,String.toList_ofList]
  exact ((numeral_toDigits (by decide) n).map_toUpper (by decide)).leftpad (by decide) width

end Sm83.Text
