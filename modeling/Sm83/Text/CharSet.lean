/-!
Sets of characters as runs of code points. A set and its complement have no character in common
(`contains_complement`).
-/
namespace Sm83.Text

def inRanges (ranges : Array (Nat × Nat)) (c : Char) : Bool :=
  ranges.any fun (first,last) => first ≤ c.toNat && c.toNat ≤ last

/-- First and last code point of each run, in order, with a gap between any two. -/
structure CharSet where
  runs : List (Nat × Nat)
deriving DecidableEq

namespace CharSet

def maxCode : Nat := 0x10FFFF

/-- Joins runs that overlap or touch. They come in the order of their first code points. -/
def joinRuns : List (Nat × Nat) → List (Nat × Nat)
  | (a,b) :: (c,d) :: rest =>
    if c ≤ b + 1 then joinRuns ((a,max b d) :: rest) else (a,b) :: joinRuns ((c,d) :: rest)
  | runs => runs
termination_by runs => runs.length

def ofRuns (runs : List (Nat × Nat)) : CharSet := ⟨joinRuns (runs.mergeSort fun r s => r.1 ≤ s.1)⟩

def empty : CharSet := ⟨[]⟩

def all : CharSet := ⟨[(0,maxCode)]⟩

def single (c : Char) : CharSet := ⟨[(c.toNat,c.toNat)]⟩

def covers (runs : List (Nat × Nat)) (n : Nat) : Bool := runs.any fun (a,b) => a ≤ n && n ≤ b

def contains (s : CharSet) (c : Char) : Bool := covers s.runs c.toNat

def union (s t : CharSet) : CharSet := ofRuns (s.runs ++ t.runs)

/-- The runs from `next` on that are left between the given ones. -/
def gaps (next : Nat) : List (Nat × Nat) → List (Nat × Nat)
  | [] => if next ≤ maxCode then [(next,maxCode)] else []
  | (a,b) :: rest => if next < a then (next,a - 1) :: gaps (b + 1) rest else gaps (b + 1) rest

def complement (s : CharSet) : CharSet := ⟨gaps 0 s.runs⟩

def inter (s t : CharSet) : CharSet := (s.complement.union t.complement).complement

def diff (s t : CharSet) : CharSet := s.inter t.complement

def symmDiff (s t : CharSet) : CharSet := (s.diff t).union (t.diff s)

def bothCases (s : CharSet) : CharSet :=
  let upper := (s.inter ⟨[(0x41,0x5A)]⟩).runs.map fun (a,b) => (a + 0x20,b + 0x20)
  let lower := (s.inter ⟨[(0x61,0x7A)]⟩).runs.map fun (a,b) => (a - 0x20,b - 0x20)
  ofRuns (s.runs ++ upper ++ lower)

/-- The sets that have a name, all of them below 0x80. -/
def named? (name : List Char) : Option CharSet :=
  let runs := match String.ofList name with
    | "alnum" => [(0x30,0x39),(0x41,0x5A),(0x61,0x7A)]
    | "alpha" => [(0x41,0x5A),(0x61,0x7A)]
    | "ascii" => [(0x00,0x7F)]
    | "blank" => [(0x09,0x09),(0x20,0x20)]
    | "cntrl" => [(0x00,0x1F),(0x7F,0x7F)]
    | "digit" => [(0x30,0x39)]
    | "graph" => [(0x21,0x7E)]
    | "lower" => [(0x61,0x7A)]
    | "print" => [(0x20,0x7E)]
    | "punct" => [(0x21,0x2F),(0x3A,0x40),(0x5B,0x60),(0x7B,0x7E)]
    | "space" => [(0x09,0x0D),(0x20,0x20)]
    | "upper" => [(0x41,0x5A)]
    | "word" => [(0x30,0x39),(0x41,0x5A),(0x5F,0x5F),(0x61,0x7A)]
    | "xdigit" => [(0x30,0x39),(0x41,0x46),(0x61,0x66)]
    | _ => []
  if runs.isEmpty then none else some ⟨runs⟩

/-- Runs one after another, the first not before `least`. -/
def InOrder : Nat → List (Nat × Nat) → Prop
  | _,[] => True
  | least,(a,b) :: rest => least ≤ a ∧ a ≤ b ∧ InOrder (b + 1) rest

private theorem le_of_covers {least n : Nat} {runs : List (Nat × Nat)} (h : InOrder least runs)
    (c : covers runs n = true) : least ≤ n := by
  induction runs generalizing least with
  | nil => simp [covers] at c
  | cons r rest ih =>
    obtain ⟨first,second,others⟩ := h
    simp only [covers,List.any_cons,Bool.or_eq_true,Bool.and_eq_true,decide_eq_true_eq] at c
    rcases c with c | c
    · omega
    · have := ih others c
      omega

private theorem covers_gaps {next n : Nat} {runs : List (Nat × Nat)} (h : InOrder next runs)
    (max : n ≤ maxCode) : covers (gaps next runs) n = (decide (next ≤ n) && !covers runs n) := by
  induction runs generalizing next with
  | nil =>
    by_cases le : next ≤ maxCode
    · simp [gaps,covers,le,max]
    · simp [gaps,covers,le]; omega
  | cons r rest ih =>
    obtain ⟨first,second,others⟩ := h
    have tail := ih others
    have later := le_of_covers (n := n) others
    rw [Bool.eq_iff_iff] at tail ⊢
    simp only [covers,gaps,List.any_cons,Bool.and_eq_true,decide_eq_true_eq,
      Bool.not_eq_true',Bool.or_eq_false_iff,Bool.and_eq_false_iff,decide_eq_false_iff_not] at *
    split <;> simp only [List.any_cons,Bool.or_eq_true,Bool.and_eq_true,decide_eq_true_eq,tail] <;>
      grind

theorem contains_complement {s : CharSet} (h : InOrder 0 s.runs) (c : Char) :
    s.complement.contains c = !s.contains c := by
  have max : c.toNat ≤ maxCode := by
    have := c.valid
    simp only [UInt32.isValidChar,Nat.isValidChar] at this
    simp only [maxCode,Char.toNat]
    omega
  simpa [complement,contains] using covers_gaps h max

end CharSet
end Sm83.Text
