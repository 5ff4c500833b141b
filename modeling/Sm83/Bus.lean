import Sm83.Memory
import Sm83.Interrupts

/-!
What the processor sees of its surroundings: a 64 KiB address space that it reads and writes, and
the interrupt lines that wait.
-/
namespace Sm83

class Bus (σ : Type) where
  read : σ → UInt16 → UInt8 × σ
  write : σ → UInt16 → UInt8 → σ
  interrupts : σ → Interrupts

/-- Plain memory at every address, beside a fixed set of waiting interrupts. -/
structure FlatBus where
  memory : Memory := .zero
  interrupts : Interrupts := {}
deriving Inhabited

instance : Bus FlatBus where
  read b a := (b.memory.read a,b)
  write b a v := {b with memory := b.memory.write a v}
  interrupts b := b.interrupts

inductive AccessKind
  | read | write
deriving DecidableEq

/-- The state of the read and write pins. -/
def AccessKind.label : AccessKind → String
  | read => "r-m" | write => "-wm"

structure Access where
  addr : UInt16
  data : UInt8
  kind : AccessKind
deriving DecidableEq

/-- A bus that notes each access in order. -/
structure Recorded (σ : Type) where
  bus : σ
  trace : Array Access := #[]

instance {σ : Type} [Bus σ] : Bus (Recorded σ) where
  read b a :=
    let (v,bus) := Bus.read b.bus a
    (v,{bus := bus, trace := b.trace.push ⟨a,v,.read⟩})
  write b a v := {bus := Bus.write b.bus a v, trace := b.trace.push ⟨a,v,.write⟩}
  interrupts b := Bus.interrupts b.bus

abbrev TraceBus := Recorded FlatBus

end Sm83
