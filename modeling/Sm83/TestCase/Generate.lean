import Sm83.Cpu.Run
import Sm83.TestCase
import Sm83.TestCase.Draw

/-!
Making test cases: an opcode is put where a random state's PC points, and one step shows what it
does.
-/
namespace Sm83

namespace Draw

def program (d : Draw) (op : Opcode) : Memory := d.memory.store d.pc op.encoding

def registers (d : Draw) : Registers :=
  {((({} : Registers).setAF d.af).setBC d.bc).setDE d.de |>.setHL d.hl with sp := d.sp, pc := d.pc}

def machine (d : Draw) (op : Opcode) : Machine TraceBus :=
  {cpu := {regs := d.registers, ime := d.ime}, bus := {bus := {memory := d.program op}}}

end Draw

def insertAddress (a : UInt16) : List UInt16 → List UInt16
  | [] => [a]
  | b :: rest => if a < b then a :: b :: rest else if a = b then b :: rest else b :: insertAddress a rest

/-- The addresses of some accesses, each once, in rising order. -/
def addresses (trace : List Access) : List UInt16 := trace.foldl (fun as x => insertAddress x.addr as) []

def Memory.cells (m : Memory) (as : List UInt16) : List (UInt16 × UInt8) := as.map fun a => (a,m.read a)

namespace TestCase
open Text

/-- As many entries as the step lasted, four clocks each: its accesses first, then empty ones. -/
def cyclesOf (trace : List Access) (clocks : Nat) : List (Option Cycle) :=
  let n := clocks / 4
  (trace.map (some ∘ Cycle.ofAccess) ++ List.replicate (n - trace.length) none).take n

def nameOf (bytes : List UInt8) : String := " ".intercalate (bytes.map fun b => lowerHex 2 b.toNat)

/-- Only the addresses that the step went to are listed as memory. -/
def generate (op : Opcode) (d : Draw) : Except Fault TestCase :=
  let before := d.machine op
  match Exec.step.run before with
  | (.error fault,_) => .error fault
  | (.ok clocks,after) =>
    let trace := after.bus.trace.toList
    let memory := d.program op
    .ok {
      name := nameOf (memory.slice d.pc op.length)
      initial := .ofCpu before.cpu (memory.cells (addresses trace))
      expected := .ofCpu after.cpu (after.bus.bus.memory.cells (addresses trace))
      cycles := cyclesOf trace clocks }

def generateMany {m : Type → Type} [Monad m] (source : RandomSource m) (op : Opcode) :
    Nat → m (List TestCase × Option Fault)
  | 0 => return ([],none)
  | n + 1 => do
    match generate op (← source.draw op) with
    | .error fault => return ([],some fault)
    | .ok t =>
      let (ts,fault) ← generateMany source op n
      return (t :: ts,fault)

end TestCase
end Sm83
