import Sm83.Word

/-!
The condition flags. They are the high nibble of register F; its low nibble does not exist, so
`toByte_ofByte` drops it and `ofByte_toByte` loses nothing.
-/
namespace Sm83

/-- Zero, subtract, half carry and carry. -/
structure Flags where
  z : Bool := false
  n : Bool := false
  h : Bool := false
  c : Bool := false
deriving DecidableEq, Inhabited

namespace Flags

def none : Flags := {}

/-- The flags whose bits, from 7 down to 4, are set. -/
def ofByte (b : UInt8) : Flags :=
  ⟨b &&& 0x80 != 0,b &&& 0x40 != 0,b &&& 0x20 != 0,b &&& 0x10 != 0⟩

private def bit (set : Bool) (b : UInt8) : UInt8 := if set then b else 0

def toByte (f : Flags) : UInt8 := bit f.z 0x80 ||| bit f.n 0x40 ||| bit f.h 0x20 ||| bit f.c 0x10

def union (f g : Flags) : Flags := ⟨f.z || g.z,f.n || g.n,f.h || g.h,f.c || g.c⟩

def remove (f mask : Flags) : Flags :=
  ⟨f.z && !mask.z,f.n && !mask.n,f.h && !mask.h,f.c && !mask.c⟩

def assign (f mask : Flags) (value : Bool) : Flags := if value then f.union mask else f.remove mask

def contains (f mask : Flags) : Bool :=
  (!mask.z || f.z) && (!mask.n || f.n) && (!mask.h || f.h) && (!mask.c || f.c)

/-- One letter for each set flag, a dash for each clear one. -/
def text (f : Flags) : String :=
  let letter (set : Bool) (c : Char) := if set then c else '-'
  .ofList [letter f.z 'Z',letter f.n 'N',letter f.h 'H',letter f.c 'C']

@[simp] theorem ofByte_toByte (f : Flags) : ofByte f.toByte = f := by
  obtain ⟨z,n,h,c⟩ := f
  revert z n h c
  decide

theorem toByte_ofByte (b : UInt8) : (ofByte b).toByte = b &&& 0xF0 := by
  revert b
  decide +kernel

theorem toByte_low (f : Flags) : f.toByte &&& 0x0F = 0 := by
  obtain ⟨z,n,h,c⟩ := f
  revert z n h c
  decide

theorem toByte_union (f g : Flags) : (f.union g).toByte = f.toByte ||| g.toByte := by
  obtain ⟨a,b,c,d⟩ := f
  obtain ⟨i,j,k,l⟩ := g
  revert a b c d i j k l
  decide

theorem toByte_remove (f mask : Flags) : (f.remove mask).toByte = f.toByte &&& ~~~mask.toByte := by
  obtain ⟨a,b,c,d⟩ := f
  obtain ⟨i,j,k,l⟩ := mask
  revert a b c d i j k l
  decide

theorem toByte_assign (f mask : Flags) (value : Bool) : (f.assign mask value).toByte =
    if value then f.toByte ||| mask.toByte else f.toByte &&& ~~~mask.toByte := by
  cases value with
  | true => exact f.toByte_union mask
  | false => exact f.toByte_remove mask

end Flags
end Sm83
