import Sm83.Interrupts

/-!
The interrupt lines as bits of a byte, and the list of those that wait. Main statements:
`highest_eq_head?`, the lines are entered in the order of the list, and `lines_withdraw`, each that
is entered leaves it.
-/
namespace Sm83

def Line.isIn (line : Line) (f : UInt8) : Bool := f.toNat.testBit line.val

namespace Line

theorem isIn_or (line : Line) (f g : UInt8) : line.isIn (f ||| g) = (line.isIn f || line.isIn g) := by
  simp only [isIn,UInt8.toNat_or,Nat.testBit_or]

theorem isIn_and (line : Line) (f g : UInt8) : line.isIn (f &&& g) = (line.isIn f && line.isIn g) := by
  simp only [isIn,UInt8.toNat_and,Nat.testBit_and]

theorem isIn_known (line : Line) (f : UInt8) : line.isIn (f &&& 0x1F) = line.isIn f := by
  have known : ∀ l : Line, l.isIn 0x1F := by decide
  rw [isIn_and,known,Bool.and_true]

theorem isIn_remove (line : Line) (f : UInt8) (l : Fin 8) :
    line.isIn (f &&& ~~~bitMask l) = (line.isIn f && line.bit != l) := by
  have others : ∀ (k : Line) (l : Fin 8), k.isIn (~~~bitMask l) = (k.bit != l) := by decide
  rw [isIn_and,others]

theorem bit_inj {line l : Line} (same : line.bit = l.bit) : line = l := by
  have places := congrArg Fin.val same
  exact Fin.ext places

end Line

namespace Interrupts

/-- The lines that wait, in the order in which they are entered. -/
def lines (i : Interrupts) : List Line := (List.finRange 5).filter i.waits

theorem highest_eq_head? (i : Interrupts) : i.highest = i.lines.head? := by
  have all : ∀ b, highest ⟨b⟩ = (lines ⟨b⟩).head? := by decide +kernel
  exact all i.pending

theorem pairwise_lines (i : Interrupts) : i.lines.Pairwise (· < ·) := by
  have ordered : (List.finRange 5).Pairwise (· < ·) := by decide
  exact ordered.filter _

theorem waits_ofByte (b : UInt8) (line : Line) : (ofByte b).waits line = line.isIn b := by
  have all : ∀ b, ∀ line : Line, (ofByte b).waits line = line.isIn b := by decide +kernel
  exact all b line

theorem mem_lines_ofByte {b : UInt8} {line : Line} :
    line ∈ (ofByte b).lines ↔ b &&& bitMask line.bit ≠ 0 := by
  have known : ∀ l : Line, 0x1F &&& bitMask l.bit = bitMask l.bit := by decide
  rw [lines,List.mem_filter]
  simp [waits,ofByte,UInt8.and_assoc,known]

theorem isIn_iff {b : UInt8} (line : Line) : line.isIn b ↔ b &&& bitMask line.bit ≠ 0 := by
  rw [← mem_lines_ofByte,lines,List.mem_filter,waits_ofByte]
  simp

theorem lines_ne_nil {b : UInt8} (waits : b &&& 0x1F ≠ 0) : (ofByte b).lines ≠ [] := by
  have any : (ofByte b).any := by
    have known : (0x1F : UInt8) &&& 0x1F = 0x1F := rfl
    rw [Interrupts.any,ofByte,UInt8.and_assoc,known]
    exact bne_iff_ne.mpr waits
  intro empty
  rw [any_eq_isSome_highest,highest_eq_head?,empty] at any
  cases any

def withdraw (f : UInt8) (line : Line) : UInt8 := f &&& ~~~bitMask line.bit

theorem lines_withdraw (e f : UInt8) (line : Line) :
    (ofByte (e &&& withdraw f line)).lines = (ofByte (e &&& f)).lines.filter (· != line) := by
  rw [lines,lines,withdraw,List.filter_filter]
  congr 1
  funext l
  have places : (l.bit != line.bit) = (l != line) := by
    revert l line
    decide
  rw [waits_ofByte,waits_ofByte,Line.isIn_and,Line.isIn_remove,Line.isIn_and,places]
  cases line.isIn e <;> cases l.isIn f <;> simp [Bool.and_comm]

private theorem foldl_withdraw_and (l : List Line) (f g : UInt8) :
    l.foldl withdraw (f &&& g) = f &&& l.foldl withdraw g := by
  induction l generalizing g with
  | nil => rfl
  | cons line l ih =>
    have first : withdraw (f &&& g) line = f &&& withdraw g line := UInt8.and_assoc f g _
    rw [List.foldl_cons,List.foldl_cons,first,ih]

theorem foldl_withdraw_lines (b f : UInt8) :
    (ofByte b).lines.foldl withdraw f = f &&& ~~~(b &&& 0x1F) := by
  have all : ∀ b, (ofByte b).lines.foldl withdraw (-1) = ~~~(b &&& 0x1F) := by decide +kernel
  have whole := foldl_withdraw_and (ofByte b).lines f (-1)
  rw [UInt8.and_neg_one] at whole
  exact whole.trans (congrArg (f &&& ·) (all b))

end Interrupts
end Sm83
