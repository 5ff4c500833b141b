import Sm83.Proofs.Cpu.Timing

/-!
Sleeping and waking. No instruction sees the counters of the processor (`Routine.run_later`), so that
a sleeper that is woken does what it would have done awake, one machine cycle later
(`Exec.run_step_woken`). Main statement: `steps_of_halted`.
-/
namespace Sm83

def Cpu.later (c : Cpu) (k : Nat) : Cpu := {c with cycles := c.cycles + k, total := c.total + k}

private theorem Cpu.charge_later (c : Cpu) (k : Nat) : (c.later k).charge = c.charge.later k := by
  simp only [later,charge,Nat.add_right_comm]

theorem Steady.later {α : Type} {f : Cpu → α × Cpu} (steady : Steady α f) (c : Cpu) (k : Nat) :
    f (c.later k) = ((f c).1,(f c).2.later k) := by
  have own : f c = ((f c).1,{(f c).2 with cycles := c.cycles, total := c.total, fault := c.fault}) :=
    steady c c.cycles c.total c.fault
  have cycles : (f c).2.cycles = c.cycles := congrArg (fun v => v.2.cycles) own
  have total : (f c).2.total = c.total := congrArg (fun v => v.2.total) own
  have fault : (f c).2.fault = c.fault := congrArg (fun v => v.2.fault) own
  refine (steady c (c.cycles + k) (c.total + k) c.fault).trans ?_
  rw [Cpu.later,cycles,total,← fault]

namespace Machine
variable {σ : Type}

def later (m : Machine σ) (k : Nat) : Machine σ := {m with cpu := m.cpu.later k}

def awake (m : Machine σ) : Machine σ := {m with cpu := m.cpu.wake}

def slept (m : Machine σ) : Nat → Machine σ
  | 0 => m
  | _ + 1 => {m with cpu := {m.cpu with cycles := 0, eiDelay := false}}

end Machine

variable {σ : Type} [Bus σ]

theorem Routine.run_later {α : Type} {n : Nat} {x : Program α} (r : Routine Steady n x)
    (m : Machine σ) (k : Nat) :
    (x σ).run (m.later k) = (((x σ).run m).1,((x σ).run m).2.later k) := by
  induction r generalizing m with
  | pure | interruptWaits => rfl
  | idle =>
    exact congrArg (fun c => ((),(⟨c,m.bus⟩ : Machine σ))) (m.cpu.charge_later k)
  | read a =>
    exact congrArg (fun c => ((Bus.read m.bus a).1,(⟨c,(Bus.read m.bus a).2⟩ : Machine σ)))
      (m.cpu.charge_later k)
  | write a v =>
    exact congrArg (fun c => ((),(⟨c,Bus.write m.bus a v⟩ : Machine σ))) (m.cpu.charge_later k)
  | onCpu f allowed =>
    exact congrArg (fun v => (v.1,(⟨v.2,m.bus⟩ : Machine σ))) (allowed.later m.cpu k)
  | more _ _ ih => exact ih m
  | bind _ _ first next => rw [Exec.run_bind,first,next,Exec.run_bind]

private theorem Routine.accesses_later {α : Type} {n : Nat} {x : Program α} (r : Routine Steady n x)
    (m : Machine σ) (k : Nat) : Exec.accesses x (m.later k) = Exec.accesses x m := by
  have run := r.run_later m.recording k
  rw [Exec.accesses,Exec.accesses]
  exact congrArg (fun v => v.2.bus.trace.toList) run

namespace Machine

private theorem underway_awake {m : Machine σ} (halted : m.cpu.halted) :
    m.underway = m.awake.underway.later 4 := by
  obtain ⟨⟨regs,ime,halted,eiDelay,haltBug,cycles,total,fault⟩,b⟩ := m
  cases halted
  cases haltBug <;> rfl

end Machine

namespace Exec
variable {m : Machine σ} {i : Instr}

theorem run_step_executed (clear : m.cpu.fault = none) (awake : m.cpu.halted = false)
    (decoded : Instr.decode m.opcode = some i) :
    step.run m = (.ok (i.clocks m.cpu.regs.flags (m.underway.stream i.operandBytes)),
      ((execute i).run m.underway).2) := by
  have waking := m.wakes_of_awake awake
  have run := run_step_fetched clear waking
  obtain ⟨-,t,timed,-⟩ := timing_of_step clear waking decoded
  rw [decoded] at run
  rw [run,awake,if_neg Bool.false_ne_true,Nat.zero_add] at timed
  have clocks := Except.ok.inj (congrArg Prod.fst timed)
  rw [← clocks]
  exact run

theorem run_step_woken (clear : m.cpu.fault = none) (halted : m.cpu.halted)
    (waits : (Bus.interrupts m.bus).any) : step.run m =
      ((step.run m.awake).1.map (· + 4),(step.run m.awake).2.later 4) := by
  have same : m.awake.opcode = m.opcode := rfl
  rw [run_step_fetched (m := m) clear fun _ => waits,run_step_fetched (m := m.awake) clear nofun,
    Machine.underway_awake halted,same]
  cases Instr.decode m.opcode with
  | none => rfl
  | some i =>
    dsimp only
    rw [(Routine.execute i).run_later]
    rfl

private theorem accesses_step_woken (clear : m.cpu.fault = none) (halted : m.cpu.halted)
    (waits : (Bus.interrupts m.bus).any) :
    accesses (fun _ => step) m = accesses (fun _ => step) m.awake := by
  have fetch : m.awake.fetch = m.fetch := rfl
  have opcode : m.awake.opcode = m.opcode := rfl
  rw [accesses_step_fetched (m := m) clear fun _ => waits,
    accesses_step_fetched (m := m.awake) clear nofun,Machine.underway_awake halted,fetch,opcode]
  cases Instr.decode m.opcode with
  | none => rfl
  | some i =>
    dsimp only [Option.elim]
    rw [(Routine.execute i).accesses_later]

def steps : Nat → Exec σ (List (Except Fault Nat))
  | 0 => return []
  | n + 1 => do
    let result ← step
    return result :: (← steps n)

theorem run_steps_asleep (clear : m.cpu.fault = none) (halted : m.cpu.halted)
    (quiet : (Bus.interrupts m.bus).any = false) (n : Nat) :
    (steps n).run m = (List.replicate n (.ok 0),m.slept n) := by
  induction n generalizing m with
  | zero => rfl
  | succ n ih =>
    have rest := ih (m := m.slept 1) clear halted quiet
    have same : (m.slept 1).slept n = m.slept (n + 1) := by cases n <;> rfl
    rw [same] at rest
    rw [steps,run_bind,run_step_asleep clear halted quiet,run_bind]
    exact congrArg (fun v => (Except.ok 0 :: v.1,v.2)) rest

/-- What a sleeper does, whatever stands at PC. While no interrupt waits, its steps take no time, touch
neither the bus nor the registers, and leave it asleep. Once one waits, a step is in every respect that
of the same processor awake, four clocks later. -/
theorem steps_of_halted (clear : m.cpu.fault = none) (halted : m.cpu.halted) :
    ((Bus.interrupts m.bus).any = false → ∀ n,
      (steps n).run m = (List.replicate n (.ok 0),m.slept n) ∧ accesses (fun _ => steps n) m = []) ∧
    ((Bus.interrupts m.bus).any →
      let awake : Machine σ := {m with cpu.halted := false}
      step.run m = ((step.run awake).1.map (· + 4),(step.run awake).2.later 4) ∧
        accesses (fun _ => step) m = accesses (fun _ => step) awake) := by
  constructor
  · intro quiet n
    have silent := run_steps_asleep (m := m.recording) clear halted quiet n
    refine ⟨run_steps_asleep clear halted quiet n,?_⟩
    rw [accesses,silent]
    cases n <;> rfl
  · intro waits awake
    exact ⟨run_step_woken clear halted waits,accesses_step_woken clear halted waits⟩

/-- Asleep at another `HALT`, with interrupts off. -/
def drowsy (lines : UInt8) : Machine FlatBus where
  cpu := {regs := {pc := 0x0010}, halted := true, total := 100}
  bus := {memory := Memory.zero.write 0x0010 0x76, interrupts := .ofByte lines}

theorem steps_of_halted_drowsy : (drowsy 0).cpu.fault = none ∧ (drowsy 0).cpu.halted ∧
    (Bus.interrupts (drowsy 0).bus).any = false ∧ (Bus.interrupts (drowsy 4).bus).any ∧
    (steps 3).run (drowsy 0) = ([.ok 0,.ok 0,.ok 0],drowsy 0) ∧
    ∃ t, step.run (drowsy 4) = (.ok 8,t) ∧ t.cpu.haltBug ∧ t.cpu.halted = false ∧
      t.cpu.total = 108 ∧ accesses (fun _ => step) (drowsy 4) = [⟨0x0010,0x76,.read⟩] := by
  obtain ⟨sleeps,-⟩ := steps_of_halted (m := drowsy 0) rfl rfl
  obtain ⟨-,wakes⟩ := steps_of_halted (m := drowsy 4) rfl rfl
  obtain ⟨run,made⟩ := wakes rfl
  let awake : Machine FlatBus := {drowsy 4 with cpu.halted := false}
  have opcode : awake.opcode = 0x76 := (Memory.read_write _ _ _ _).trans (if_pos rfl)
  have decoded : Instr.decode awake.opcode = some .halt := by rw [opcode]; rfl
  have stepped := run_step_executed (m := awake) rfl rfl decoded
  have fetched := accesses_step_fetched (m := awake) rfl nofun
  rw [stepped] at run
  rw [fetched,decoded] at made
  refine ⟨rfl,rfl,rfl,rfl,(sleeps rfl 3).1,_,run,by decide +kernel,by decide +kernel,
    by decide +kernel,?_⟩
  exact made.trans (congrArg (fun v => [Access.mk 0x0010 v .read]) opcode)

end Exec
end Sm83
