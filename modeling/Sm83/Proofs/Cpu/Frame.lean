import Sm83.Proofs.Cpu.Accesses

/-!
What an instruction may change in the processor besides its registers. Main statement:
`run_execute`, the switches move as `Instr.switch` says, and the clocks grow by fours.
-/
namespace Sm83
variable {σ : Type} [Bus σ]

def Cpu.moved (c : Cpu) (regs : Registers) (k : Nat) : Cpu :=
  {c with regs := regs, cycles := c.cycles + 4 * k, total := c.total + 4 * k}

private theorem Cpu.moved_moved (c : Cpu) (r q : Registers) (j k : Nat) :
    (c.moved r j).moved q k = c.moved q (j + k) := by
  simp only [moved,Nat.mul_add,Nat.add_assoc]

theorem Routine.run_plain {α : Type} {n : Nat} {x : Program α} (r : Routine RegsOnly n x)
    (m : Machine σ) : ∃ regs k, ((x σ).run m).2.cpu = m.cpu.moved regs k := by
  induction r generalizing m with
  | pure | interruptWaits => exact ⟨m.cpu.regs,0,rfl⟩
  | idle | read | write => exact ⟨m.cpu.regs,1,rfl⟩
  | onCpu f allowed =>
    obtain ⟨g,same⟩ := allowed
    exact ⟨(g m.cpu.regs).2,0,congrArg Prod.snd (same m.cpu)⟩
  | more _ _ ih => exact ih m
  | bind _ _ first next =>
    obtain ⟨r,j,moved⟩ := first m
    obtain ⟨q,k,movedOn⟩ := next _ _
    exact ⟨q,j + k,by rw [Exec.run_bind,movedOn,moved,Cpu.moved_moved]⟩

/-- What an instruction does to the switches of the processor, by whether an interrupt waits. -/
def Instr.switch (waits : Bool) (c : Cpu) : Instr → Cpu
  | halt => if !c.ime && waits then {c with haltBug := true} else {c with halted := true}
  | stop => {c with halted := true}
  | di => {c with ime := false, eiDelay := false}
  | ei => {c with ime := true, eiDelay := c.eiDelay || !c.ime}
  | reti => {c with ime := true}
  | _ => c

theorem Instr.switch_plain {i : Instr} (plain : i.isPlain) (waits : Bool) (c : Cpu) :
    i.switch waits c = c := by
  cases i <;> first | rfl | cases plain

theorem Instr.switch_cycles (i : Instr) (waits : Bool) (c : Cpu) :
    (i.switch waits c).cycles = c.cycles := by
  cases i with
  | halt =>
    simp only [switch]
    split <;> rfl
  | _ => rfl

theorem Instr.switch_fault (i : Instr) (waits : Bool) (c : Cpu) :
    (i.switch waits c).fault = c.fault := by
  cases i with
  | halt =>
    simp only [switch]
    split <;> rfl
  | _ => rfl

namespace Exec

theorem run_execute (i : Instr) (m : Machine σ) :
    ∃ regs k, ((execute i).run m).2.cpu =
      (i.switch (Bus.interrupts m.bus).any m.cpu).moved regs k := by
  by_cases plain : i.isPlain
  · rw [i.switch_plain plain]
    exact (Routine.execute_plain i plain).run_plain m
  · cases i with
    | halt =>
      refine ⟨m.cpu.regs,0,?_⟩
      change (if !m.cpu.ime && (Bus.interrupts m.bus).any then _ else _) = Cpu.moved (ite _ _ _) _ _
      split <;> rfl
    | stop =>
      obtain ⟨regs,k,moved⟩ := Routine.fetch.run_plain m
      exact ⟨regs,k,congrArg (fun c => {c with halted := true}) moved⟩
    | di => exact ⟨m.cpu.regs,0,rfl⟩
    | ei => exact ⟨m.cpu.regs,0,rfl⟩
    | reti =>
      obtain ⟨regs,k,moved⟩ := Routine.returnBack.run_plain m
      exact ⟨regs,k,congrArg (fun c => {c with ime := true}) moved⟩
    | _ => exact absurd rfl plain

end Exec
end Sm83
