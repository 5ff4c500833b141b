import Sm83.Instr.Mnemonic
import Sm83.Text.Blank
import Sm83.Text.Numeral

/-!
The opcodes for which test cases are made, and how they are named on a command line. Main
statement: `mem_catalogue_iff`.
-/
namespace Sm83.Opcode
open Text

/-- The opcodes after which the processor sleeps. -/
def sleeping : List UInt8 := [0x10,0x76]

def announcing : UInt8 := 0xCB

def allBytes : List UInt8 := (List.range 256).map UInt8.ofNat

/-- Whether the opcode stands for one whole instruction that leaves the processor awake. -/
def isCatalogued : Opcode → Bool
  | primary op => !(op == announcing || sleeping.contains op || undefinedOpcodes.contains op)
  | prefixed _ => true

def catalogue : List Opcode := (allBytes.map primary ++ allBytes.map prefixed).filter isCatalogued

private theorem mem_allBytes (op : UInt8) : op ∈ allBytes := by
  simp only [allBytes,List.mem_map,List.mem_range]
  exact ⟨op.toNat,op.toNat_lt,UInt8.ofNat_toNat⟩

theorem mem_catalogue_iff (o : Opcode) : o ∈ catalogue ↔ o.isCatalogued := by
  cases o <;> simp [catalogue,mem_allBytes]

def stripAll (mark : List Char) (cs : List Char) : List Char :=
  if _ : mark.isPrefixOf cs ∧ mark ≠ [] then stripAll mark (cs.drop mark.length) else cs
termination_by cs.length
decreasing_by
  obtain ⟨begins,nonempty⟩ := ‹mark.isPrefixOf cs ∧ mark ≠ []›
  have := (List.isPrefixOf_iff_prefix.mp begins).length_le
  have := List.length_pos_iff.mpr nonempty
  simp only [List.length_drop]
  omega

/-- Reads an opcode in base sixteen, with or without marks of that base. One that follows 0xCB has
`cb` before it. Letters may be of either case. -/
def parse? (text : List Char) : Option Opcode :=
  let byte (digits : List Char) := (readNatural 16 256 (stripAll ['0','x'] digits)).toOption.map UInt8.ofNat
  match (trim text).map Char.toLower with
  | 'c' :: 'b' :: rest => (byte (trim rest)).map prefixed
  | digits => (byte digits).map primary

def stem : Opcode → String
  | primary op => lowerHex 2 op.toNat
  | prefixed op => s!"cb {lowerHex 2 op.toNat}"

end Sm83.Opcode
