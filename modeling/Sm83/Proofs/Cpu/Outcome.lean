import Sm83.Proofs.Cpu.Outline

/-!
The whole outcome of a step that nothing stands in the way of: the machine that it leaves behind, and its
accesses to the bus. Main statement: `leaves_of_execute`, by which both are read off the instruction.
-/
namespace Sm83
variable {σ : Type} [Bus σ]

/-- The processor goes on with the instruction at PC, and has it behind it then. -/
structure Cpu.Running (c : Cpu) : Prop where
  clear : c.fault = none
  awake : c.halted = false
  unarmed : c.haltBug = false

namespace Machine

def begun (m : Machine σ) : Machine σ where
  cpu :=
    { m.cpu with
      regs := {m.cpu.regs with pc := m.cpu.regs.pc + 1}
      eiDelay := false
      cycles := 4
      total := m.cpu.total + 4 }
  bus := (Bus.read m.bus m.cpu.regs.pc).2

def code (m : Machine σ) (n : Nat) : List Access :=
  Access.fetches m.cpu.regs.pc (m.opcode :: m.begun.stream n)

private theorem underway_eq_begun {m : Machine σ} (running : m.cpu.Running) : m.underway = m.begun := by
  obtain ⟨⟨regs,ime,halted,eiDelay,haltBug,cycles,total,fault⟩,bus⟩ := m
  cases running.awake
  cases running.unarmed
  rfl

end Machine

namespace Exec

/-- The step succeeds, with the accesses `made` and nothing else that happens to the bus. The processor
is left with the registers `u` and IME as `ime` says, its clocks counted and the window after `EI` over,
and is otherwise as it was. -/
structure Leaves (m : Machine σ) (u : Registers) (ime : Bool) (made : List Access) : Prop where
  run : ∃ n, step.run m = (.ok n,{
    cpu := {m.cpu with regs := u, ime := ime, eiDelay := false, cycles := n, total := m.cpu.total + n}
    bus := made.foldl Bus.follow m.bus})
  accesses : accesses (fun _ => step) m = made

variable {m : Machine σ} {i : Instr}

theorem Leaves.congr {u v : Registers} {ime : Bool} {made seen : List Access}
    (leaves : Leaves m u ime made) (regs : u = v) (accesses : made = seen) : Leaves m v ime seen := by
  rw [← regs,← accesses]
  exact leaves

theorem leaves_of_switch (running : m.cpu.Running) (decoded : Instr.decode m.opcode = some i) {ime : Bool}
    (switched : ∀ waits, i.switch waits m.begun.cpu = {m.begun.cpu with ime := ime}) :
    Leaves m ((execute i).run m.begun).2.cpu.regs ime
      (m.fetch :: accesses (fun _ => execute i) m.begun) := by
  have waking := m.wakes_of_awake running.awake
  have run := run_step_fetched running.clear waking
  have made := accesses_step_fetched running.clear waking
  rw [decoded,Machine.underway_eq_begun running] at run made
  obtain ⟨regs,k,moved⟩ := run_execute i m.begun
  rw [switched] at moved
  have bus := (Routine.execute i).bus_run m.begun
  have left : ((execute i).run m.begun).2 = ⟨_,_⟩ := congr (congrArg Machine.mk moved) bus
  refine ⟨⟨4 + 4 * k,?_⟩,made⟩
  dsimp only at run
  rw [left] at run
  rw [run,left]
  simp only [Cpu.moved,Machine.begun,Nat.add_assoc]
  rfl

theorem decode_of_opcode {code : UInt8} (decoded : Instr.decode code = some i) (here : m.opcode = code) :
    Instr.decode m.opcode = some i := by rw [here,decoded]

theorem leaves_of_execute (running : m.cpu.Running) (decoded : Instr.decode m.opcode = some i)
    (plain : i.isPlain) : Leaves m ((execute i).run m.begun).2.cpu.regs m.cpu.ime
      (m.fetch :: accesses (fun _ => execute i) m.begun) :=
  leaves_of_switch running decoded fun waits => i.switch_plain plain waits m.begun.cpu

end Exec
end Sm83
