import Sm83.Proofs.Cpu.Accesses

/-!
Work on plain memory depends on the addresses that it goes to and on nothing else. Main statement:
`Routine.run_agree`.
-/
namespace Sm83

def Memory.Agree (m n : Memory) (l : List Access) : Prop := ∀ x ∈ l, m.read x.addr = n.read x.addr

namespace FlatBus
variable {b c : FlatBus} {a : UInt16}

private theorem read_follow (same : b.memory.read a = c.memory.read a) (x : Access) :
    (Bus.follow b x).memory.read a = (Bus.follow c x).memory.read a := by
  obtain ⟨addr,v,kind⟩ := x
  cases kind with
  | read => exact same
  | write =>
    change (b.memory.write addr v).read a = (c.memory.write addr v).read a
    rw [Memory.read_write,Memory.read_write,same]

private theorem read_foldl_follow (same : b.memory.read a = c.memory.read a) (l : List Access) :
    (l.foldl Bus.follow b).memory.read a = (l.foldl Bus.follow c).memory.read a := by
  induction l generalizing b c with
  | nil => exact same
  | cons x l ih => exact ih (read_follow same x)

private theorem interrupts_follow (b : FlatBus) (x : Access) :
    (Bus.follow b x).interrupts = b.interrupts := by
  obtain ⟨addr,v,kind⟩ := x
  cases kind <;> rfl

theorem alike_of_agree {l : List Access} (lines : b.interrupts = c.interrupts)
    (agree : b.memory.Agree c.memory l) : Bus.Alike b c l := by
  have waits : (Bus.interrupts b).any = (Bus.interrupts c).any := congrArg Interrupts.any lines
  induction l generalizing b c with
  | nil => exact waits
  | cons x l ih =>
    refine ⟨waits,fun _ => agree x List.mem_cons_self,?_⟩
    have lines' : (Bus.follow b x).interrupts = (Bus.follow c x).interrupts := by
      rw [interrupts_follow,interrupts_follow,lines]
    refine ih lines' ?_ (congrArg Interrupts.any lines')
    intro y member
    exact read_follow (agree y (List.mem_cons_of_mem _ member)) x

end FlatBus

namespace Routine
open Exec
variable {U : (α : Type) → (Cpu → α × Cpu) → Prop} {α : Type} {n : Nat} {x : Program α}

/-- On memories that agree where it goes a program does the same, and they go on to agree wherever
they agreed before. -/
theorem run_agree (r : Routine U n x) {m : Machine FlatBus} {c : FlatBus}
    (lines : m.bus.interrupts = c.interrupts) (agree : m.bus.memory.Agree c.memory (accesses x m)) :
    ((x FlatBus).run ⟨m.cpu,c⟩).1 = ((x FlatBus).run m).1 ∧
      ((x FlatBus).run ⟨m.cpu,c⟩).2.cpu = ((x FlatBus).run m).2.cpu ∧
      ∀ a, m.bus.memory.read a = c.memory.read a →
        ((x FlatBus).run ⟨m.cpu,c⟩).2.bus.memory.read a = ((x FlatBus).run m).2.bus.memory.read a := by
  have run := (r.run_alike m c (FlatBus.alike_of_agree lines agree)).1
  rw [run]
  refine ⟨rfl,rfl,?_⟩
  intro a same
  rw [r.bus_run]
  exact FlatBus.read_foldl_follow same.symm _

end Routine
end Sm83
