import Sm83.Word

/-!
The five interrupt lines. Line 0 has the highest priority; `highest_eq_some_iff` says that the
dispatched line is the lowest one that waits.
-/
namespace Sm83

abbrev Line := Fin 5

def Line.bit (line : Line) : Fin 8 := line.castLE (by decide)

/-- The lines that are both requested and enabled, line `i` at bit `i`. -/
structure Interrupts where
  pending : UInt8 := 0
deriving DecidableEq, Inhabited

namespace Interrupts

/-- Bits that belong to no line are dropped. -/
def ofByte (b : UInt8) : Interrupts := ⟨b &&& 0x1F⟩

def waits (i : Interrupts) (line : Line) : Bool :=
  i.pending &&& bitMask line.bit != 0

def any (i : Interrupts) : Bool := i.pending &&& 0x1F != 0

def highest (i : Interrupts) : Option Line :=
  if i.any then (List.finRange 5).find? i.waits else none

theorem any_eq_isSome_highest (i : Interrupts) : i.any = i.highest.isSome := by
  have all : ∀ b, any ⟨b⟩ = (highest ⟨b⟩).isSome := by decide +kernel
  exact all i.pending

theorem highest_eq_some_iff (i : Interrupts) (line : Line) :
    i.highest = some line ↔ i.waits line ∧ ∀ l < line, i.waits l = false := by
  have all : ∀ b, ∀ line : Line, highest ⟨b⟩ = some line ↔
      waits ⟨b⟩ line ∧ ∀ l < line, waits ⟨b⟩ l = false := by
    decide +kernel
  exact all i.pending line

end Interrupts

def vector (line : Line) : UInt16 := 0x40 + 8 * UInt16.ofNat line.val

end Sm83
