import Sm83.Gzip.Bits

/-!
Codes in which no code word begins with another, given by the lengths of their words. Words are
handed out in order: shorter ones first, and of one length by symbol.
-/
namespace Sm83.Gzip

inductive CodeTree
  | unused
  | symbol (s : Nat)
  | branch (zero one : CodeTree)

namespace CodeTree

def read? : CodeTree → Bits → Option (Nat × Bits)
  | symbol s,bits => some (s,bits)
  | branch zero one,b :: bits => if b then one.read? bits else zero.read? bits
  | _,_ => none

def isFull : CodeTree → Bool
  | unused => false
  | symbol _ => true
  | branch zero one => zero.isFull && one.isFull

/-- A tree that begins at `depth`, filled with the words, and the words that find no place in it.
A word is given by its length and symbol; words come in order. -/
def fill : Nat → Nat → List (Nat × Nat) → CodeTree × List (Nat × Nat)
  | _,_,[] => (unused,[])
  | 0,_,words => (unused,words)
  | room + 1,depth,(length,s) :: words =>
    if length ≤ depth then (symbol s,words)
    else
      let (zero,words) := fill room (depth + 1) ((length,s) :: words)
      let (one,words) := fill room (depth + 1) words
      (branch zero one,words)

theorem length_of_read? {t : CodeTree} {s : Nat} {bits rest : Bits} (h : t.read? bits = some (s,rest)) :
    rest.length ≤ bits.length := by
  fun_induction t.read? bits with
  | case1 => simp only [Option.some.injEq,Prod.mk.injEq] at h; simp [h.2]
  | case2 zero one bits ih => have := ih h; simp; omega
  | case3 zero one b bits _ ih => have := ih h; simp; omega
  | case4 => simp at h

end CodeTree

/-- A code whose words have at least one bit. -/
structure PrefixCode where
  zero : CodeTree
  one : CodeTree

namespace PrefixCode

def maxLength : Nat := 15

/-- The words in order, given the lengths of the words for 0, 1 and so on; a symbol of length 0 has
no word. -/
def wordsInOrder (lengths : List Nat) : List (Nat × Nat) :=
  (List.range' 1 maxLength).flatMap fun l => lengths.zipIdx.filter fun w => w.1 == l

/-- There must be room for all words, and none left over. Only a single word of one bit may do
without its sister. -/
def ofLengths? (lengths : List Nat) : Option PrefixCode :=
  let words := wordsInOrder lengths
  match CodeTree.fill (maxLength + 1) 0 words with
  | (t@(.branch zero one),[]) => if t.isFull || words.map Prod.fst = [1] then some ⟨zero,one⟩ else none
  | (.unused,[]) => some ⟨.unused,.unused⟩
  | _ => none

def isFull (c : PrefixCode) : Bool := c.zero.isFull && c.one.isFull

def read? (c : PrefixCode) : Bits → Option (Nat × Bits)
  | [] => none
  | b :: bits => if b then c.one.read? bits else c.zero.read? bits

theorem length_of_read? {c : PrefixCode} {s : Nat} {bits rest : Bits}
    (h : c.read? bits = some (s,rest)) : rest.length < bits.length := by
  match bits,h with
  | b :: bits,h =>
    simp only [read?] at h
    split at h <;> · have := CodeTree.length_of_read? h; simp only [List.length_cons]; omega

end PrefixCode
end Sm83.Gzip
