import Sm83.Cpu.Run
import Sm83.TestCase

/-!
Replaying a test case: one step from its initial state has to lead to the state that it expects. Clocks
are counted exactly here; `toNat_clocks` says for which cases a count in 32 bits comes to the same.
-/
namespace Sm83
open Text

def CpuState.registers (s : CpuState) : List (String × Nat) :=
  [("A",s.a.toNat),("F",s.f.toNat),("B",s.b.toNat),("C",s.c.toNat),("D",s.d.toNat),("E",s.e.toNat),
    ("H",s.h.toNat),("L",s.l.toNat),("SP",s.sp.toNat),("PC",s.pc.toNat),("IME",s.ime.toNat)]

namespace TestCase

inductive Mismatch
  | fault (f : Fault)
  | register (name : String) (got expected : Nat)
  | memory (addr : UInt16) (got expected : UInt8)
  | clocks (got expected : Nat)
deriving DecidableEq

def Mismatch.message : Mismatch → String
  | fault f => f.message
  | register name got expected => s!"{name} (got 0x{upperHex 1 got} exp 0x{upperHex 1 expected})"
  | memory addr got expected =>
    s!"RAM[0x{upperHex 4 addr.toNat}] (got 0x{upperHex 2 got.toNat} exp 0x{upperHex 2 expected.toNat})"
  | clocks got expected => s!"cycles (got {got} exp {expected})"

def compareRegisters (got expected : CpuState) : Option Mismatch :=
  (got.registers.zip expected.registers).findSome? fun ((name,g),(_,e)) =>
    if g = e then none else some (.register name g e)

def compareMemory (m : Memory) (expected : List (UInt16 × UInt8)) : Option Mismatch :=
  expected.findSome? fun (a,v) => if m.read a = v then none else some (.memory a (m.read a) v)

def compareClocks (got expected : Nat) : Option Mismatch :=
  if got = expected then none else some (.clocks got expected)

theorem toNat_clocks {t : TestCase} (few : t.cycles.length < 0x40000000) :
    (UInt32.ofNat t.cycles.length * 4).toNat = 4 * t.cycles.length := by
  rw [UInt32.toNat_mul,UInt32.toNat_ofNat_of_lt' (by simp only [UInt32.size]; omega)]
  change t.cycles.length * 4 % 0x100000000 = _
  omega

/-- Each entry of `cycles` stands for four clocks. -/
def replay (t : TestCase) : Option Mismatch :=
  match Exec.step.run t.initial.machine with
  | (.error fault,_) => some (.fault fault)
  | (.ok clocks,m) =>
    compareRegisters (.ofCpu m.cpu []) t.expected <|>
      compareMemory m.bus.bus.memory t.expected.ram <|> compareClocks clocks (4 * t.cycles.length)

def report (t : TestCase) (e : Mismatch) : String := s!"{t.name}: {e.message}"

end TestCase
end Sm83
