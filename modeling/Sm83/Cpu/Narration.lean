import Sm83.Cpu.Run
import Sm83.Log.Event

/-!
What the processor tells about a step, read off the state before it.
-/
namespace Sm83.Machine
variable {σ : Type} [Bus σ]

def narrateNext (m : Machine σ) : List Event :=
  let pc := m.cpu.regs.pc
  let (op,m) := Exec.fetchOpcode.run m
  .fetched pc op m.cpu.regs :: match entry op with
    | .runs .halt =>
      if !m.cpu.ime && (Bus.interrupts m.bus).any then [.haltBug pc] else [.halted pc]
    | .runs .stop => [.stopped pc]
    | .runs .extended => [.fetchedBit pc (Exec.fetch.run m).1]
    | .runs _ => []
    | .illegal => [.faulted (.illegal op pc)]
    | .unimplemented => [.faulted (.unimplemented (.primary op) pc)]

def narrateStep (m : Machine σ) : List Event :=
  if m.cpu.fault.isSome then []
  else if !m.cpu.halted then m.narrateNext
  else if (Bus.interrupts m.bus).any then
    .woke m.cpu.regs.pc :: {m with cpu := m.cpu.wake}.narrateNext
  else []

def narrateUntil (target : Option UInt16) : Nat → Machine σ → List Event
  | 0,_ => []
  | n + 1,m =>
    if target == some m.cpu.regs.pc then []
    else m.narrateStep ++ match Exec.step.run m with
      | (.ok _,m) => narrateUntil target n m
      | (.error _,_) => []

def narrateDispatch (m : Machine σ) (vector : UInt16) : List Event :=
  [.dispatched vector m.cpu.regs.pc m.cpu.halted]

end Sm83.Machine
