import Sm83.Proofs.Cpu.Step

/-!
The HALT bug. The opcode that is fetched with PC left in place is seen once more by what follows, as
if it stood in memory twice. Main statement: `twice_of_armed`.
-/
namespace Sm83

def Fault.movedTo (pc : UInt16) : Fault → Fault
  | illegal op _ => illegal op pc
  | unimplemented op _ => unimplemented op pc

namespace Machine
variable {σ : Type} [Bus σ] {m : Machine σ}

def rewound {σ : Type} (m : Machine σ) : Machine σ :=
  {m with cpu := {m.cpu with haltBug := false, regs := {m.cpu.regs with pc := m.cpu.regs.pc - 1}}}

private theorem opcode_rewound
    (twice : Bus.read m.bus (m.cpu.regs.pc - 1) = Bus.read m.bus m.cpu.regs.pc) :
    m.rewound.opcode = m.opcode := congrArg Prod.fst twice

private theorem underway_rewound (awake : m.cpu.halted = false) (armed : m.cpu.haltBug)
    (twice : Bus.read m.bus (m.cpu.regs.pc - 1) = Bus.read m.bus m.cpu.regs.pc) :
    m.rewound.underway = m.underway := by
  obtain ⟨⟨regs,ime,halted,eiDelay,haltBug,cycles,total,fault⟩,b⟩ := m
  cases awake
  cases armed
  have back : regs.pc - 1 + 1 = regs.pc := UInt16.sub_add_cancel regs.pc 1
  have bus : (Bus.read b (regs.pc - 1)).2 = (Bus.read b regs.pc).2 := congrArg Prod.snd twice
  simp only [underway,rewound,Cpu.roused,Cpu.fetched,Cpu.charge,Bool.false_eq_true,if_false,if_true,
    back,bus]

/-- With the HALT bug armed and the byte at PC standing in front of it as well, a step on plain memory
is the step without the bug from one byte earlier. Only the first access and the address of a fault
tell of the difference. -/
theorem twice_of_armed {m : Machine FlatBus} (clear : m.cpu.fault = none)
    (awake : m.cpu.halted = false) (armed : m.cpu.haltBug)
    (twice : m.bus.memory.read (m.cpu.regs.pc - 1) = m.bus.memory.read m.cpu.regs.pc) :
    let p := m.cpu.regs.pc
    let op := m.bus.memory.read p
    let u : Machine FlatBus :=
      {m with cpu := {m.cpu with haltBug := false, regs := {m.cpu.regs with pc := p - 1}}}
    (∀ n t, Exec.step.run m = (.ok n,t) → Exec.step.run u = (.ok n,t)) ∧
    (∀ f t, Exec.step.run m = (.error f,t) → f.pc = p ∧ t.cpu.fault = some f ∧
      Exec.step.run u =
        (.error (f.movedTo (p - 1)),{t with cpu := {t.cpu with fault := some (f.movedTo (p - 1))}})) ∧
    ∃ rest, Exec.accesses (fun _ => Exec.step) m = ⟨p,op,.read⟩ :: rest ∧
      Exec.accesses (fun _ => Exec.step) u = ⟨p - 1,op,.read⟩ :: rest := by
  intro p op u
  have same : Bus.read m.bus (p - 1) = Bus.read m.bus p := congrArg (fun v => (v,m.bus)) twice
  have opcode : u.opcode = m.opcode := opcode_rewound same
  have underway : u.underway = m.underway := underway_rewound awake armed same
  have waking {P : Prop} (halted : m.cpu.halted) : P := by
    rw [awake] at halted
    cases halted
  have run := Exec.run_step_fetched (m := m) clear waking
  have run' := Exec.run_step_fetched (m := u) clear waking
  have made := Exec.accesses_step_fetched (m := m) clear waking
  have made' := Exec.accesses_step_fetched (m := u) clear waking
  rw [opcode,underway] at run' made'
  have first : u.fetch = ⟨p - 1,op,.read⟩ := congrArg (fun v => Access.mk (p - 1) v .read) opcode
  rw [first] at made'
  refine ⟨?_,?_,_,made,made'⟩
  · intro n t taken
    cases decoded : Instr.decode m.opcode with
    | none =>
      rw [run,decoded] at taken
      cases taken
    | some i =>
      rw [decoded] at run run'
      rw [run',← run,taken]
  · intro f t failed
    cases decoded : Instr.decode m.opcode with
    | none =>
      rw [decoded] at run run'
      rw [run] at failed
      cases failed
      exact ⟨rfl,rfl,run'⟩
    | some i =>
      rw [run,decoded] at failed
      cases failed

/-- A call after `HALT`, whose opcode is fetched again as its own first operand. -/
def hesitant : Machine FlatBus :=
  { cpu := {regs := {sp := 0xD000, pc := 0x0041}, haltBug := true}
    bus := {memory := Memory.zero.store 0x0040 [0xCD,0xCD,0x34], interrupts := ⟨1⟩} }

theorem twice_of_armed_hesitant : hesitant.bus.memory.read 0x0040 = 0xCD ∧
    hesitant.bus.memory.read 0x0041 = 0xCD ∧ ∃ t rest,
      Exec.step.run hesitant = (.ok 24,t) ∧
      Exec.step.run {hesitant with cpu := {hesitant.cpu with haltBug := false, regs.pc := 0x0040}} =
        (.ok 24,t) ∧
      Exec.accesses (fun _ => Exec.step) hesitant = ⟨0x0041,0xCD,.read⟩ :: rest := by
  have before : hesitant.bus.memory.read 0x0040 = 0xCD := by decide +kernel
  have here : hesitant.bus.memory.read 0x0041 = 0xCD := by decide +kernel
  obtain ⟨same,-,rest,made,-⟩ :=
    twice_of_armed (m := hesitant) rfl rfl rfl (before.trans here.symm)
  have decoded : Instr.decode hesitant.opcode = some (.call none) := by decide +kernel
  have run := Exec.run_step_fetched (m := hesitant) rfl nofun
  rw [decoded] at run
  change Exec.step.run hesitant = (.ok 24,_) at run
  change Exec.accesses _ hesitant = ⟨0x0041,hesitant.bus.memory.read 0x0041,.read⟩ :: rest at made
  rw [here] at made
  exact ⟨before,here,_,rest,run,same _ _ run,made⟩

end Machine
end Sm83
