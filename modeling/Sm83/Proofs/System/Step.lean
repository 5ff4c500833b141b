import Sm83.System
import Sm83.Proofs.Cpu.Step

/-!
The turns that a step of the system can take: into a handler, or through the processor's step.
Main statements: `turn_of_step`, and `act_bus`, by which the accesses tell all that the processor
does to the bus.
-/
namespace Sm83

namespace Machine
variable {σ : Type}

def pushes (m : Machine σ) : List Access :=
  [⟨m.cpu.regs.sp - 1,highByte m.cpu.regs.pc,.write⟩,⟨m.cpu.regs.sp - 2,lowByte m.cpu.regs.pc,.write⟩]

def inHandler (m : Machine σ) (a : UInt16) : Cpu :=
  { m.cpu with
    regs := {m.cpu.regs with sp := m.cpu.regs.sp - 2, pc := a}
    ime := false
    eiDelay := false
    halted := false
    cycles := 20
    total := m.cpu.total + 20 }

variable [Bus σ]

private theorem run_dispatch (m : Machine σ) (a : UInt16) :
    (Exec.dispatch a).run m = (20,⟨m.inHandler a,m.pushes.foldl Bus.follow m.bus⟩) := by
  simp only [inHandler,pushes,← UInt16.sub_one_sub_one]
  rfl

theorem accesses_dispatch (m : Machine σ) (a : UInt16) :
    Exec.accesses (fun _ => Exec.dispatch a) m = m.pushes := by
  rw [pushes,← UInt16.sub_one_sub_one]
  rfl

end Machine

namespace System

/-- The line whose handler the next step enters, if it enters one. -/
def accepted (s : System) : Option Line :=
  if s.cpu.acceptsInterrupts then s.bus.interrupts.highest else none

/-- The bus as the processor comes to it: the request of an accepted line is withdrawn. -/
def granted (s : System) : SystemBus :=
  match s.accepted with
  | some line => s.bus.acknowledge line.bit
  | none => s.bus

/-- The accesses that the processor makes in a step, as a recording bus shows them. -/
def accesses (s : System) : List Access :=
  match s.accepted with
  | some line => Exec.accesses (fun _ => Exec.dispatch (vector line)) ⟨s.cpu,s.granted⟩
  | none => Exec.accesses (fun _ => Exec.step) s.toMachine

def elapsed (spent : Nat) : Nat := if spent = 0 then 4 else spent

def settle (s : System) (m : Machine SystemBus) (clocks : Nat) : System :=
  ⟨⟨m.cpu,m.bus.tick clocks⟩,s.clock + clocks⟩

def enter (s : System) (line : Line) : Machine SystemBus :=
  ⟨s.inHandler (vector line),s.pushes.foldl Bus.follow (s.bus.acknowledge line.bit)⟩

/-- The turns of a step: how it starts, its result and the system that it leaves behind. -/
inductive Turn (s : System) : Except Fault Nat → System → Prop
  | entered (line : Line) (accepted : s.accepted = some line) (made : s.accesses = s.pushes) :
      Turn s (.ok 20) (s.settle (s.enter line) 20)
  | failed {f : Fault} {m : Machine SystemBus} (refused : s.accepted = none)
      (course : Exec.Course s.toMachine (.error f) m)
      (made : s.accesses = Exec.accesses (fun _ => Exec.step) s.toMachine) :
      Turn s (.error f) ⟨m,s.clock⟩
  | passed {n : Nat} {m : Machine SystemBus} (refused : s.accepted = none)
      (course : Exec.Course s.toMachine (.ok n) m)
      (made : s.accesses = Exec.accesses (fun _ => Exec.step) s.toMachine) :
      Turn s (.ok (elapsed n)) (s.settle m (elapsed n))

/-- Interrupts are switched on, the instruction after `EI` is over, and an enabled line is requested. -/
def interruptible (s : System) : Prop :=
  s.cpu.ime ∧ s.cpu.eiDelay = false ∧ s.bus.interruptEnable &&& s.bus.interruptFlags &&& 0x1F ≠ 0

theorem exists_accepted_iff (s : System) : (∃ line, s.accepted = some line) ↔ s.interruptible := by
  have once (b : UInt8) : b &&& 0x1F &&& 0x1F = b &&& 0x1F := by rw [UInt8.and_assoc]; rfl
  simp only [← Option.isSome_iff_exists,accepted,interruptible,← and_assoc]
  rw [apply_ite Option.isSome,← Interrupts.any_eq_isSome_highest]
  simp [Interrupts.any,SystemBus.interrupts,Interrupts.ofByte,Cpu.acceptsInterrupts,once]

theorem accepted_eq_none_iff (s : System) : s.accepted = none ↔ ¬s.interruptible := by
  rw [← exists_accepted_iff,← Option.isSome_iff_exists]
  simp

theorem act_eq (s : System) : act s.toMachine = match s.accepted with
    | some line => (.ok 20,s.enter line)
    | none => Exec.step.run s.toMachine := by
  simp only [act,accepted]
  cases s.cpu.acceptsInterrupts with
  | false => cases s.bus.interrupts.highest <;> rfl
  | true =>
    cases s.bus.interrupts.highest with
    | none => rfl
    | some line =>
      simp only [Machine.run_dispatch]
      rfl

theorem turn_of_step {s t : System} {result : Except Fault Nat} (step : s.step = (result,t)) :
    s.Turn result t := by
  have act := s.act_eq
  cases accepted : s.accepted with
  | some line =>
    have made : s.accesses = s.pushes := by
      simp only [accesses,accepted,Machine.accesses_dispatch]
      rfl
    rw [accepted] at act
    simp only [System.step,act] at step
    cases step
    exact .entered line accepted made
  | none =>
    have made : s.accesses = Exec.accesses (fun _ => Exec.step) s.toMachine := by
      simp only [accesses,accepted]
    rw [accepted] at act
    simp only [System.step,act] at step
    cases run : Exec.step.run s.toMachine with
    | mk spent m =>
      have course := Exec.course_of_step run
      rw [run] at step
      cases spent with
      | error f =>
        cases step
        exact .failed accepted course made
      | ok n =>
        cases step
        exact .passed accepted course made

theorem exists_turn (s : System) : ∃ result t, s.step = (result,t) ∧ s.Turn result t :=
  ⟨_,_,rfl,turn_of_step rfl⟩

theorem act_bus (s : System) : (act s.toMachine).2.bus = s.accesses.foldl Bus.follow s.granted := by
  rw [act_eq,accesses,granted]
  cases s.accepted with
  | none => exact Routine.step.bus_run s.toMachine
  | some line =>
    simp only [Machine.accesses_dispatch]
    rfl

end System
end Sm83
