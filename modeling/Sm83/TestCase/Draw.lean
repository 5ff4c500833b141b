import Sm83.Instr.Mnemonic
import Sm83.Memory

/-!
The random choices behind a test case. They are drawn from a source of words, in a fixed order.
-/
namespace Sm83

structure Draw where
  memory : Memory
  af : UInt16
  bc : UInt16
  de : UInt16
  hl : UInt16
  sp : UInt16
  pc : UInt16
  ime : Bool

/-- A source gives words of 32 bits and whole memories. A choice that has refused `patience` words in
a row makes do with the next one. -/
structure RandomSource (m : Type → Type) where
  word : m UInt32
  memory : m Memory
  patience : Nat

namespace RandomSource

def wordCount : Nat := 0x100000000

/-- Scales a word down to a number below `n`, unless it is one of the words that would favour some
of the numbers. -/
def scale? (n : Nat) (w : UInt32) : Option Nat :=
  let p := w.toNat * n
  if p % wordCount < wordCount - (wordCount - n) % n then some (p / wordCount) else none

variable {m : Type → Type} [Monad m]

def half (s : RandomSource m) : m UInt16 := return (← s.word).toUInt16

def below (s : RandomSource m) (n : Nat) : Nat → m Nat
  | 0 => return (← s.word).toNat * n / wordCount
  | refusals + 1 => do
    match scale? n (← s.word) with
    | some v => return v
    | none => s.below n refusals

/-- An address at which an instruction of `length` bytes ends before the end of the address space. -/
def start (s : RandomSource m) (length : Nat) : m UInt16 := do
  if length ≤ 1 then s.half else return UInt16.ofNat (← s.below (0x10001 - length) s.patience)

def draw (s : RandomSource m) (op : Opcode) : m Draw := do
  let memory ← s.memory
  let af ← s.half
  let bc ← s.half
  let de ← s.half
  let hl ← s.half
  let sp ← s.half
  let pc ← s.start op.length
  let top ← s.word
  return ⟨memory,af,bc,de,hl,sp,pc,top ≥ 0x80000000⟩

end RandomSource

/-- A fixed source: its words come round in turn, and each memory begins one place further on in the
bytes that fill it over and over. -/
structure Script where
  words : Array UInt32
  fill : Array UInt8

namespace Script

structure Position where
  words : Nat := 0
  memories : Nat := 0

/-- The item of an array at an index that comes round. -/
private def cyclic {α : Type} (items : Array α) (zero : α) (i : Nat) : α :=
  (items[i % items.size]?).getD zero

def source (s : Script) : RandomSource (StateM Position) where
  word := fun p => (cyclic s.words 0 p.words,{p with words := p.words + 1})
  memory := fun p => (.ofFn fun a => cyclic s.fill 0 (a + p.memories),{p with memories := p.memories + 1})
  patience := s.words.size

end Script
end Sm83
