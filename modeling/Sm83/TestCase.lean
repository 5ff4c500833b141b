import Sm83.Cpu
import Sm83.Bus

/-!
Cases that pin down one step of the processor: the state before it, the state after it, and what
happened on the bus.
-/
namespace Sm83

/-- What the bus did in four clocks. The label gives the state of the read and write pins. -/
structure Cycle where
  addr : UInt16
  data : UInt8
  label : String
deriving DecidableEq

def Cycle.ofAccess (a : Access) : Cycle := ⟨a.addr,a.data,a.kind.label⟩

/-- The registers, and the memory that matters. -/
structure CpuState where
  pc : UInt16
  sp : UInt16
  a : UInt8
  b : UInt8
  c : UInt8
  d : UInt8
  e : UInt8
  f : UInt8
  h : UInt8
  l : UInt8
  ime : UInt8 := 0
  ie : Option UInt8 := none
  ram : List (UInt16 × UInt8)
deriving DecidableEq

namespace CpuState

/-- The state of a processor. No interrupt is enabled in it. -/
def ofCpu (c : Cpu) (ram : List (UInt16 × UInt8)) : CpuState :=
  let r := c.regs
  { pc := r.pc, sp := r.sp, a := r.a, b := r.b, c := r.c, d := r.d, e := r.e, f := r.f, h := r.h,
    l := r.l, ime := c.ime.toUInt8, ie := some 0, ram := ram }

def toCpu (s : CpuState) : Cpu :=
  { regs :=
      { a := s.a, flags := .ofByte s.f, b := s.b, c := s.c, d := s.d, e := s.e, h := s.h, l := s.l,
        sp := s.sp, pc := s.pc }
    ime := s.ime != 0 }

/-- Empty memory but for the listed bytes. -/
def memory (s : CpuState) : Memory := s.ram.foldl (fun m (a,v) => m.write a v) .zero

def machine (s : CpuState) : Machine TraceBus := {cpu := s.toCpu, bus := {bus := {memory := s.memory}}}

end CpuState

/-- Each cycle with an access has an entry that tells of it. -/
structure TestCase where
  name : String
  initial : CpuState
  expected : CpuState
  cycles : List (Option Cycle)
deriving DecidableEq

end Sm83
