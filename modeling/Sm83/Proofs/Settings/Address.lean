import Mathlib.Data.Bool.AllAny
import Sm83.Proofs.Text.Numeral
import Sm83.Settings.Address

/-!
Which texts are addresses. Main statement: `parseAddress_iff`.
-/
namespace Sm83
open Text

/-- The marks that may stand before the digits of an address, with the base that they tell. -/
def baseMarks : List (List Char × Nat) := [(['0','x'],16),(['0','X'],16),(['$'],16),([],10)]

/-- The text stands for the address `n`: white space around it apart, it is a mark of the base, at most
one plus sign, and a numeral of that base. -/
def Spells (text : List Char) (n : Nat) : Prop :=
  ∃ front mark base sign digits back, text = front ++ (mark ++ (sign ++ digits)) ++ back ∧
    (∀ c ∈ front, isBlank c) ∧ (∀ c ∈ back, isBlank c) ∧ (mark,base) ∈ baseMarks ∧
    sign ∈ [[],['+']] ∧ Numeral base digits n ∧ n ≤ 0xFFFF

theorem Spells.le {text : List Char} {n : Nat} (spells : Spells text n) : n ≤ 0xFFFF := by
  obtain ⟨-,-,-,-,-,-,-,-,-,-,-,-,fits⟩ := spells
  exact fits

section
variable {mark sign digits : List Char} {base n : Nat}

private theorem base_of_mark (marked : (mark,base) ∈ baseMarks) : 0 < base ∧ base ≤ 16 := by
  have all : ∀ m ∈ baseMarks, 0 < m.2 ∧ m.2 ≤ 16 := by decide
  exact all _ marked

private theorem exists_mark (cs : List Char) :
    ∃ mark, (mark,(splitBase cs).1) ∈ baseMarks ∧ cs = mark ++ (splitBase cs).2 := by
  unfold splitBase
  split
  · exact ⟨['0','x'],by simp [baseMarks],rfl⟩
  · exact ⟨['0','X'],by simp [baseMarks],rfl⟩
  · exact ⟨['$'],by simp [baseMarks],rfl⟩
  · exact ⟨[],by simp [baseMarks],rfl⟩

private theorem splitBase_decimal (signed : sign ∈ [[],['+']]) (numeral : Numeral 10 digits n) :
    splitBase (sign ++ digits) = (10,sign ++ digits) := by
  have other : ∀ c ∈ digits, c ∉ ['x','X','$'] := by
    intro c member mark
    obtain ⟨d,is⟩ := numeral.digits c member
    have none : ∀ c ∈ ['x','X','$'], digit? 10 c = none := List.all_iff_forall_prop.mp (by decide)
    cases (none c mark).symm.trans (digit?_of_isDigit (by decide) is)
  simp only [List.mem_cons,List.not_mem_nil,or_false] at signed
  rcases signed with rfl | rfl
  · rw [List.nil_append]
    unfold splitBase
    split
    · exact absurd (by simp) (other 'x' (by simp))
    · exact absurd (by simp) (other 'X' (by simp))
    · exact absurd (by simp) (other '$' (by simp))
    · rfl
  · rfl

private theorem splitBase_append (marked : (mark,base) ∈ baseMarks) (signed : sign ∈ [[],['+']])
    (numeral : Numeral base digits n) :
    splitBase (mark ++ (sign ++ digits)) = (base,sign ++ digits) := by
  simp only [baseMarks,List.mem_cons,Prod.mk.injEq,List.not_mem_nil,or_false] at marked
  rcases marked with ⟨rfl,rfl⟩ | ⟨rfl,rfl⟩ | ⟨rfl,rfl⟩ | ⟨rfl,rfl⟩
  · rfl
  · rfl
  · rfl
  · have split := splitBase_decimal signed numeral
    exact split

private theorem isBlank_of_isDigit {c : Char} {d : Nat} (small : base ≤ 16) (is : IsDigit base c d) :
    isBlank c = false := by
  have all : ∀ d : Fin 16, isBlank d.val.digitChar = false ∧ isBlank d.val.digitChar.toUpper = false := by
    decide
  obtain ⟨below,rfl | rfl⟩ := is
  · exact (all ⟨d,by omega⟩).1
  · exact (all ⟨d,by omega⟩).2

private theorem solid_of_numeral (marked : (mark,base) ∈ baseMarks) (signed : sign ∈ [[],['+']])
    (numeral : Numeral base digits n) : ∀ c ∈ mark ++ (sign ++ digits), isBlank c = false := by
  have marks : ∀ m ∈ baseMarks, m.1.all fun c => isBlank c = false := by decide
  have signs : ∀ s ∈ [[],['+']], s.all fun c => isBlank c = false := by decide
  intro c member
  rcases List.mem_append.mp member with front | member
  · exact List.all_iff_forall_prop.mp (marks _ marked) c front
  · rcases List.mem_append.mp member with middle | back
    · exact List.all_iff_forall_prop.mp (signs _ signed) c middle
    · obtain ⟨d,is⟩ := numeral.digits c back
      exact isBlank_of_isDigit (base_of_mark marked).2 is

end

theorem parseAddress_eq_ok_iff (text : String) (a : UInt16) :
    parseAddress text = .ok a ↔ Spells text.toList a.toNat := by
  constructor
  · intro parsed
    obtain ⟨front,back,whole,before,after⟩ := exists_trim text.toList
    obtain ⟨mark,marked,split⟩ := exists_mark (trim text.toList)
    obtain ⟨positive,small⟩ := base_of_mark marked
    simp only [parseAddress] at parsed
    cases read : readNatural (splitBase (trim text.toList)).1 0x10000 (splitBase (trim text.toList)).2 with
    | error reason => simp [read] at parsed
    | ok v =>
      obtain ⟨sign,digits,signed,rest,numeral,below⟩ :=
        (readNatural_eq_ok_iff small positive (by decide)).mp read
      have value : a = UInt16.ofNat v := by simpa [read] using parsed.symm
      have exactly : a.toNat = v := by rw [value,UInt16.toNat_ofNat_of_lt' below]
      rw [split,rest] at whole
      rw [exactly]
      exact ⟨front,mark,_,sign,digits,back,whole,before,after,marked,signed,numeral,by omega⟩
  · rintro ⟨front,mark,base,sign,digits,back,whole,before,after,marked,signed,numeral,fits⟩
    obtain ⟨positive,small⟩ := base_of_mark marked
    have trimmed : trim text.toList = mark ++ (sign ++ digits) := by
      rw [whole]
      exact trim_append before (solid_of_numeral marked signed numeral) after
    have read : readNatural base 0x10000 (sign ++ digits) = .ok a.toNat :=
      (readNatural_eq_ok_iff small positive (by decide)).mpr
        ⟨sign,digits,signed,rfl,numeral,by omega⟩
    simp only [parseAddress,trimmed,splitBase_append marked signed numeral,read,UInt16.ofNat_toNat]

theorem parseAddress_of_numeral {front mark digits back : String} {base : Nat} {a : UInt16}
    (blank : ∀ c ∈ front.toList ++ back.toList, isBlank c) (marked : (mark.toList,base) ∈ baseMarks)
    (numeral : Numeral base digits.toList a.toNat) :
    parseAddress (front ++ mark ++ digits ++ back) = .ok a := by
  have below := a.toNat_lt
  apply (parseAddress_eq_ok_iff _ a).mpr
  refine ⟨front.toList,mark.toList,base,[],digits.toList,back.toList,?_,?_,?_,marked,by simp,numeral,
    by omega⟩
  · simp
  · exact fun c member => blank c (List.mem_append_left _ member)
  · exact fun c member => blank c (List.mem_append_right _ member)

/-- A text is read as an address exactly if it spells one, and any other text is an error. Among the
texts that are read are those that are printed, in either base, with any zeros in front of hexadecimal
digits and any white space around it all. -/
theorem parseAddress_iff :
    (∀ text a, parseAddress text = .ok a ↔ Spells text.toList a.toNat) ∧
    (∀ text, (∃ e, parseAddress text = .error e) ↔ ¬∃ n, Spells text.toList n) ∧
    ∀ (a : UInt16) (front back : String), (∀ c ∈ front.toList ++ back.toList, isBlank c) →
      parseAddress (front ++ toString a.toNat ++ back) = .ok a ∧
      ∀ mark ∈ ["0x","0X","$"], ∀ width,
        parseAddress (front ++ mark ++ lowerHex width a.toNat ++ back) = .ok a ∧
          parseAddress (front ++ mark ++ upperHex width a.toNat ++ back) = .ok a := by
  refine ⟨parseAddress_eq_ok_iff,?_,?_⟩
  · intro text
    constructor
    · rintro ⟨e,refused⟩ ⟨n,spells⟩
      have value : (UInt16.ofNat n).toNat = n := UInt16.toNat_ofNat_of_lt' (Nat.lt_succ_of_le spells.le)
      rw [← value,← parseAddress_eq_ok_iff,refused] at spells
      cases spells
    · intro unspelt
      cases parsed : parseAddress text with
      | error e => exact ⟨e,rfl⟩
      | ok a => exact absurd ⟨_,(parseAddress_eq_ok_iff text a).mp parsed⟩ unspelt
  · intro a front back blank
    constructor
    · have decimal : Numeral 10 (toString a.toNat).toList a.toNat := by
        change Numeral 10 a.toNat.repr.toList _
        rw [Nat.repr_eq_ofList_toDigits,String.toList_ofList]
        exact numeral_toDigits (by decide) _
      have parsed : parseAddress (front ++ "" ++ toString a.toNat ++ back) = .ok a :=
        parseAddress_of_numeral blank (by decide) decimal
      rwa [String.append_empty] at parsed
    · intro mark listed width
      have marked : (mark.toList,16) ∈ baseMarks := by
        have all : ∀ mark ∈ ["0x","0X","$"], (mark.toList,16) ∈ baseMarks := by decide
        exact all mark listed
      exact ⟨parseAddress_of_numeral blank marked (numeral_lowerHex width _),
        parseAddress_of_numeral blank marked (numeral_upperHex width _)⟩

theorem parseAddress_iff_padded :
    (∀ c ∈ "\u2003\t".toList ++ "\n".toList, isBlank c) ∧
      parseAddress ("\u2003\t" ++ "0X" ++ lowerHex 8 0xABCD ++ "\n") = .ok 0xABCD ∧
      parseAddress "$+00c0De " = .ok 0xC0DE := by
  obtain ⟨spelt,-,printed⟩ := parseAddress_iff
  have blank : ∀ c ∈ "\u2003\t".toList ++ "\n".toList, isBlank c := List.all_eq_true.mp (by decide)
  have numeral : Numeral 16 ['0','0','c','0','D','e'] 0xC0DE :=
    numeral_of_digitsValue (by decide) (by decide) (by decide)
  refine ⟨blank,((printed 0xABCD _ _ blank).2 "0X" (by decide) 8).1,(spelt _ 0xC0DE).mpr ?_⟩
  exact ⟨[],['$'],16,['+'],_,[' '],by decide,List.all_eq_true.mp rfl,List.all_eq_true.mp rfl,by decide,
    by decide,numeral,by decide⟩

end Sm83
