import Sm83.Proofs.Cpu.Frame

/-!
The courses that a step of the processor can take. `Exec.course_of_step` is the one case analysis
of a step; what a step does to the processor, its result and its accesses are read off the case.
-/
namespace Sm83
variable {σ : Type} [Bus σ]

namespace Cpu

/-- Set to go on: awake, its clocks counted anew, and past the instruction after `EI`. -/
def roused (c : Cpu) : Cpu :=
  let c := {c with cycles := 0, eiDelay := false}
  if c.halted then c.wake.charge else c

def fetched (c : Cpu) : Cpu :=
  if c.haltBug then {c.charge with haltBug := false}
  else {c.charge with regs := {c.regs with pc := c.regs.pc + 1}}

private theorem roused_regs (c : Cpu) : c.roused.regs = c.regs := by
  simp only [roused]
  split <;> rfl

private theorem roused_cycles (c : Cpu) : ∃ k, c.roused.cycles = 4 * k := by
  simp only [roused]
  split
  · exact ⟨1,rfl⟩
  · exact ⟨0,rfl⟩

private theorem fetched_cycles (c : Cpu) : c.fetched.cycles = c.cycles + 4 := by
  simp only [fetched]
  split <;> rfl

theorem fetched_roused (c : Cpu) : c.roused.fetched.ime = c.ime ∧ c.roused.fetched.eiDelay = false ∧
    c.roused.fetched.fault = c.fault := by
  simp only [fetched,roused]
  split <;> split <;> exact ⟨rfl,rfl,rfl⟩

end Cpu

/-- The machine as it carries out the instruction whose opcode it has just fetched. -/
def Machine.underway (m : Machine σ) : Machine σ :=
  ⟨m.cpu.roused.fetched,(Bus.read m.bus m.cpu.regs.pc).2⟩

def Machine.opcode (m : Machine σ) : UInt8 := (Bus.read m.bus m.cpu.regs.pc).1

def Machine.fetch (m : Machine σ) : Access := ⟨m.cpu.regs.pc,m.opcode,.read⟩

namespace Machine

theorem regs_underway (m : Machine σ) :
    m.underway.cpu.regs = {m.cpu.regs with pc := m.underway.cpu.regs.pc} := by
  simp only [underway,Cpu.fetched]
  split <;> simp only [Cpu.charge,m.cpu.roused_regs]

theorem pc_underway (m : Machine σ) : m.underway.cpu.regs.pc =
    if m.cpu.haltBug then m.cpu.regs.pc else m.cpu.regs.pc + 1 := by
  obtain ⟨⟨regs,ime,halted,eiDelay,haltBug,cycles,total,fault⟩,b⟩ := m
  cases halted <;> cases haltBug <;> rfl

theorem wakes_of_awake (m : Machine σ) (awake : m.cpu.halted = false) :
    m.cpu.halted → (Bus.interrupts m.bus).any := fun halted => by
  cases awake.symm.trans halted

theorem clocks_underway (m : Machine σ) :
    m.underway.cpu.cycles = (if m.cpu.halted then 4 else 0) + 4 ∧
      m.underway.cpu.total = m.cpu.total + m.underway.cpu.cycles := by
  obtain ⟨⟨regs,ime,halted,eiDelay,haltBug,cycles,total,fault⟩,b⟩ := m
  cases halted <;> cases haltBug <;> exact ⟨rfl,rfl⟩

end Machine

namespace Exec

/-- The courses of a step: how it starts, its result and the machine that it leaves behind. -/
inductive Course (m : Machine σ) : Except Fault Nat → Machine σ → Prop
  | latched (f : Fault) (fault : m.cpu.fault = some f) (made : accesses (fun _ => step) m = []) :
      Course m (.error f) m
  | asleep (clear : m.cpu.fault = none) (halted : m.cpu.halted)
      (quiet : (Bus.interrupts m.bus).any = false) (made : accesses (fun _ => step) m = []) :
      Course m (.ok 0) {m with cpu := {m.cpu with cycles := 0, eiDelay := false}}
  | refused (clear : m.cpu.fault = none) (awake : m.cpu.halted → (Bus.interrupts m.bus).any)
      (decoded : Instr.decode m.opcode = none) (made : accesses (fun _ => step) m = [m.fetch]) :
      Course m (.error (.illegal m.opcode m.cpu.regs.pc))
        {m.underway with
          cpu := {m.underway.cpu with fault := some (.illegal m.opcode m.cpu.regs.pc)}}
  | executed (i : Instr) (clear : m.cpu.fault = none)
      (awake : m.cpu.halted → (Bus.interrupts m.bus).any)
      (decoded : Instr.decode m.opcode = some i)
      (made : accesses (fun _ => step) m = m.fetch :: accesses (fun _ => execute i) m.underway) :
      Course m (.ok ((execute i).run m.underway).2.cpu.cycles) ((execute i).run m.underway).2

private theorem run_step (m : Machine σ) : step.run m = match m.cpu.fault with
    | some f => (.error f,m)
    | none =>
      let c := {m.cpu with cycles := 0, eiDelay := false}
      if m.cpu.halted then
        if (Bus.interrupts m.bus).any then executeNext.run {m with cpu := c.wake.charge}
        else (.ok 0,{m with cpu := c})
      else executeNext.run {m with cpu := c} := by
  change (match m.cpu.fault with | some f => (pure (Except.error f) : Exec σ _) | none => _).run m = _
  cases m.cpu.fault with
  | some f => rfl
  | none =>
    change (ite _ _ _ : Exec σ _).run _ = _
    split
    · change (ite _ _ _ : Exec σ _).run _ = ite _ _ _
      split <;> rfl
    · rfl

theorem run_step_latched {m : Machine σ} {f : Fault} (fault : m.cpu.fault = some f) :
    step.run m = (.error f,m) := by rw [run_step,fault]

theorem run_step_asleep {m : Machine σ} (clear : m.cpu.fault = none) (halted : m.cpu.halted)
    (quiet : (Bus.interrupts m.bus).any = false) :
    step.run m = (.ok 0,{m with cpu := {m.cpu with cycles := 0, eiDelay := false}}) := by
  rw [run_step,clear]
  simp [halted,quiet]

theorem run_step_awake {m : Machine σ} (clear : m.cpu.fault = none)
    (awake : m.cpu.halted → (Bus.interrupts m.bus).any) :
    step.run m = executeNext.run {m with cpu := m.cpu.roused} := by
  rw [run_step,clear]
  cases halted : m.cpu.halted with
  | false => simp [Cpu.roused,halted]
  | true => simp [Cpu.roused,halted,awake halted]

private theorem run_executeNext (m : Machine σ) : executeNext.run {m with cpu := m.cpu.roused} =
    match Instr.decode m.opcode with
    | none => (.error (.illegal m.opcode m.cpu.regs.pc),{m.underway with
        cpu := {m.underway.cpu with fault := some (.illegal m.opcode m.cpu.regs.pc)}})
    | some i =>
      (.ok ((execute i).run m.underway).2.cpu.cycles,((execute i).run m.underway).2) := by
  have fetching : fetchOpcode.run {m with cpu := m.cpu.roused} = (m.opcode,m.underway) := by
    have moved : (if m.cpu.roused.charge.haltBug then {m.cpu.roused.charge with haltBug := false}
        else {m.cpu.roused.charge with regs.pc := m.cpu.roused.charge.regs.pc + 1}) =
        m.cpu.roused.fetched := rfl
    rw [Machine.opcode,Machine.underway,← m.cpu.roused_regs,← moved]
    rfl
  have opened (t : Machine σ) : executeNext.run t = (carryOut (fetchOpcode.run t).1 t.cpu.regs.pc
      (entry (fetchOpcode.run t).1)).run (fetchOpcode.run t).2 := rfl
  rw [opened,fetching,m.cpu.roused_regs,entry_eq]
  cases Instr.decode m.opcode <;> rfl

theorem run_step_fetched {m : Machine σ} (clear : m.cpu.fault = none)
    (awake : m.cpu.halted → (Bus.interrupts m.bus).any) : step.run m = match Instr.decode m.opcode with
    | none => (.error (.illegal m.opcode m.cpu.regs.pc),{m.underway with
        cpu := {m.underway.cpu with fault := some (.illegal m.opcode m.cpu.regs.pc)}})
    | some i =>
      (.ok ((execute i).run m.underway).2.cpu.cycles,((execute i).run m.underway).2) :=
  (run_step_awake clear awake).trans (run_executeNext m)

theorem course_of_step {m t : Machine σ} {result : Except Fault Nat} (run : step.run m = (result,t)) :
    Course m result t := by
  cases fault : m.cpu.fault with
  | some f =>
    have made : accesses (fun _ => step) m = [] := by
      rw [accesses,run_step_latched (m := m.recording) fault]
      rfl
    rw [run_step_latched fault] at run
    cases run
    exact .latched f fault made
  | none =>
    by_cases awake : m.cpu.halted → (Bus.interrupts m.bus).any
    · have same := run_step_fetched (m := m.recording) fault awake
      rw [run_step_fetched fault awake] at run
      cases decoded : Instr.decode m.opcode with
      | none =>
        have made : accesses (fun _ => step) m = [m.fetch] := by
          change Instr.decode m.recording.opcode = none at decoded
          rw [accesses,same,decoded]
          rfl
        rw [decoded] at run
        cases run
        exact .refused fault awake decoded made
      | some i =>
        have made : accesses (fun _ => step) m = m.fetch :: accesses (fun _ => execute i) m.underway := by
          have begun : m.recording.underway = ⟨m.underway.cpu,⟨m.underway.bus,#[m.fetch]⟩⟩ := rfl
          change Instr.decode m.recording.opcode = some i at decoded
          rw [accesses,same,decoded]
          change ((execute i).run m.recording.underway).2.bus.trace.toList = _
          rw [begun,(Routine.execute i).run_recorded m.underway]
          simp
        rw [decoded] at run
        cases run
        exact .executed i fault awake decoded made
    · rw [Classical.not_imp,Bool.not_eq_true] at awake
      have made : accesses (fun _ => step) m = [] := by
        rw [accesses,run_step_asleep (m := m.recording) fault awake.1 awake.2]
        rfl
      rw [run_step_asleep fault awake.1 awake.2] at run
      cases run
      exact .asleep fault awake.1 awake.2 made

theorem exists_course (m : Machine σ) : ∃ result t, step.run m = (result,t) ∧ Course m result t :=
  ⟨_,_,rfl,course_of_step rfl⟩

theorem Course.starts {m t : Machine σ} {result : Except Fault Nat} (course : Course m result t) :
    accesses (fun _ => step) m = [] ∨ (accesses (fun _ => step) m).head? = some m.fetch := by
  cases course with
  | latched _ _ made | asleep _ _ _ made => exact .inl made
  | refused _ _ _ made | executed _ _ _ _ made => exact .inr (by rw [made]; rfl)

theorem fault_of_executed {m : Machine σ} (clear : m.cpu.fault = none) (i : Instr) :
    ((execute i).run m.underway).2.cpu.fault = none := by
  obtain ⟨regs,k,moved⟩ := run_execute i m.underway
  rw [moved]
  change (i.switch _ m.underway.cpu).fault = none
  rw [i.switch_fault]
  exact m.cpu.fetched_roused.2.2.trans clear

theorem accesses_step_fetched {m : Machine σ} (clear : m.cpu.fault = none)
    (awake : m.cpu.halted → (Bus.interrupts m.bus).any) : accesses (fun _ => step) m =
      m.fetch :: (Instr.decode m.opcode).elim [] fun i => accesses (fun _ => execute i) m.underway := by
  obtain ⟨result,t,-,course⟩ := exists_course m
  cases course with
  | latched f fault => cases clear.symm.trans fault
  | asleep _ halted quiet => cases quiet.symm.trans (awake halted)
  | refused _ _ decoded made => rw [made,decoded]; rfl
  | executed i _ _ decoded made => rw [made,decoded]; rfl

theorem Course.clocks {m t : Machine σ} {n : Nat} (course : Course m (.ok n) t) : ∃ k, n = 4 * k := by
  cases course with
  | asleep => exact ⟨0,rfl⟩
  | executed i =>
    obtain ⟨regs,k,moved⟩ := run_execute i m.underway
    obtain ⟨j,counted⟩ := m.cpu.roused_cycles
    refine ⟨j + 1 + k,?_⟩
    rw [moved]
    simp only [Cpu.moved,i.switch_cycles,Machine.underway,m.cpu.roused.fetched_cycles,counted]
    omega

end Exec
end Sm83
