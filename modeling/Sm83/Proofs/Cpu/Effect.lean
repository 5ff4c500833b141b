import Sm83.Proofs.Cpu.Step

/-!
What a program can tell of a step that leaves the interrupt switches alone: the registers and the
accesses to the bus. Main statements: `effect_of_execute`, by which both are read off the instruction,
and `effect_of_acquire` for an instruction that starts with a byte of its source.
-/
namespace Sm83

inductive Source
  | operand (o : Operand)
  | immediate

namespace Registers

/-- The registers once a byte is put into a register; one that goes to memory leaves them alone. -/
def put (r : Registers) (v : UInt8) : Operand → Registers
  | .reg x => r.set8 v x
  | .atHL => r

end Registers

def Operand.stores (hl : UInt16) (v : UInt8) : Operand → List Access
  | reg _ => []
  | atHL => [⟨hl,v,.write⟩]

variable {σ : Type} [Bus σ]

namespace Machine

def byte (m : Machine σ) : Source → UInt8
  | .operand (.reg x) => m.cpu.regs.get8 x
  | .operand .atHL => (Bus.read m.bus m.cpu.regs.hl).1
  | .immediate => m.opcode

def looks (m : Machine σ) : Source → List Access
  | .operand (.reg _) => []
  | .operand .atHL => [⟨m.cpu.regs.hl,m.byte (.operand .atHL),.read⟩]
  | .immediate => [m.fetch]

/-- PC once the processor has it. -/
def past (m : Machine σ) : Source → UInt16
  | .operand _ => m.cpu.regs.pc
  | .immediate => m.cpu.regs.pc + 1

end Machine

namespace Exec
variable {m : Machine σ} {i : Instr}

def acquire : Source → Exec σ UInt8
  | .operand o => readOperand o
  | .immediate => fetch

private theorem routine_acquire (src : Source) : Routine RegsOnly 0 fun _ => acquire src := by
  cases src with
  | operand o => exact Routine.readOperand o
  | immediate => exact Routine.fetch

theorem run_acquire (src : Source) (m : Machine σ) : ((acquire src).run m).1 = m.byte src ∧
    ((acquire src).run m).2.cpu.regs = {m.cpu.regs with pc := m.past src} ∧
    accesses (fun _ => acquire src) m = m.looks src := by
  cases src with
  | operand o => cases o <;> exact ⟨rfl,rfl,rfl⟩
  | immediate => exact ⟨rfl,rfl,rfl⟩

/-- The step succeeds, leaves the registers `u` behind and makes the accesses `made`, which are all
that happens to the bus. -/
structure Effect (m : Machine σ) (u : Registers) (made : List Access) : Prop where
  succeeds : (step.run m).1.isOk
  regs : (step.run m).2.cpu.regs = u
  ime : (step.run m).2.cpu.ime = m.cpu.ime
  accesses : accesses (fun _ => step) m = made
  bus : (step.run m).2.bus = made.foldl Bus.follow m.bus

theorem effect_of_execute (clear : m.cpu.fault = none)
    (waking : m.cpu.halted → (Bus.interrupts m.bus).any) (decoded : Instr.decode m.opcode = some i)
    (plain : i.isPlain) :
    Effect m ((execute i).run m.underway).2.cpu.regs
      (m.fetch :: accesses (fun _ => execute i) m.underway) := by
  have run := run_step_fetched clear waking
  have made := accesses_step_fetched clear waking
  rw [decoded] at run made
  refine ⟨?_,?_,?_,made,?_⟩
  · rw [run]
    rfl
  · rw [run]
  · obtain ⟨regs,k,moved⟩ := run_execute i m.underway
    rw [run]
    dsimp only
    rw [moved,i.switch_plain plain]
    exact m.cpu.fetched_roused.1
  · rw [Routine.step.bus_run,made]
    rfl

theorem effect_of_acquire {src : Source} {k : Nat} {f : UInt8 → Program Unit}
    (next : ∀ v, Routine RegsOnly k (f v)) (clear : m.cpu.fault = none)
    (waking : m.cpu.halted → (Bus.interrupts m.bus).any)
    (decoded : Instr.decode m.opcode = some i) (plain : i.isPlain)
    (works : ∀ τ [Bus τ], execute (σ := τ) i = acquire src >>= fun v => f v τ) :
    let v := m.underway.byte src
    ∃ t : Machine σ, t.cpu.regs = {m.cpu.regs with pc := m.underway.past src} ∧
      Effect m ((f v σ).run t).2.cpu.regs (m.fetch :: (m.underway.looks src ++ accesses (f v) t)) := by
  intro v
  obtain ⟨byte,regs,looks⟩ := run_acquire src m.underway
  have effect := effect_of_execute clear waking decoded plain
  simp only [works] at effect
  rw [Routine.accesses_bind (routine_acquire src) next,run_bind,byte,looks] at effect
  rw [m.regs_underway] at regs
  exact ⟨_,regs,effect⟩

end Exec
end Sm83
