import Mathlib.Data.List.Induction
import Sm83.Proofs.System.Step

/-!
When interrupts are taken. The guards of a step are states of the processor;
`interrupted_iff_of_history` reads them off the history instead, so that a step enters a handler exactly
when the history allows it.
-/
namespace Sm83

/-- What can happen to a system between two looks at it. -/
inductive Move
  | step
  | load (a : UInt16) (data : List UInt8)
  | write (a : UInt16) (v : UInt8)
  | request (mask : UInt8)
  | acknowledge (line : Fin 8)
deriving DecidableEq

namespace System

def perform (s : System) : Move → System
  | .step => s.step.2
  | .load a data => {s with bus := s.bus.load a data}
  | .write a v => {s with bus := s.bus.write a v}
  | .request mask => {s with bus := s.bus.request mask}
  | .acknowledge line => {s with bus := s.bus.acknowledge line}

def performAll (s : System) (moves : List Move) : System := moves.foldl perform s

def trail (s : System) : List Move → List System
  | [] => []
  | .step :: moves => s :: s.step.2.trail moves
  | move :: moves => (s.perform move).trail moves

structure Enters (s : System) (line : Line) (t : System) : Prop where
  step : s.step = (.ok 20,t)
  accesses : s.accesses =
    [⟨s.cpu.regs.sp - 1,highByte s.cpu.regs.pc,.write⟩,⟨s.cpu.regs.sp - 2,lowByte s.cpu.regs.pc,.write⟩]
  bus : t.bus = (((s.bus.acknowledge line.bit).write (s.cpu.regs.sp - 1) (highByte s.cpu.regs.pc)).write
    (s.cpu.regs.sp - 2) (lowByte s.cpu.regs.pc)).tick 20
  regs : t.cpu.regs = {s.cpu.regs with sp := s.cpu.regs.sp - 2, pc := 0x40 + 8 * UInt16.ofNat line}
  switches : t.cpu.ime = false ∧ t.cpu.halted = false ∧ t.cpu.eiDelay = false ∧
    t.cpu.haltBug = s.cpu.haltBug ∧ t.cpu.fault = s.cpu.fault
  clock : t.cpu.cycles = 20 ∧ t.cpu.total = s.cpu.total + 20 ∧ t.clock = s.clock + 20

/-- The step fetches the opcode of an instruction at PC. -/
def Executes (s : System) (i : Instr) : Prop :=
  ∃ op, s.accesses.head? = some ⟨s.cpu.regs.pc,op,.read⟩ ∧ Instr.decode op = some i

variable {s t : System} {line : Line} {i : Instr}

theorem enters_of_accepted (accepted : s.accepted = some line) :
    s.Enters line (s.settle (s.enter line) 20) := by
  have act := s.act_eq
  rw [accepted] at act
  have made : s.accesses = s.pushes := by
    simp only [System.accesses,accepted,Machine.accesses_dispatch]
    rfl
  have taken : s.step = (.ok 20,s.settle (s.enter line) 20) := by
    simp only [System.step,act]
    rfl
  exact ⟨taken,made,rfl,rfl,⟨rfl,rfl,rfl,rfl,rfl⟩,⟨rfl,rfl,rfl⟩⟩

private theorem accesses_of_refused (refused : s.accepted = none) :
    s.accesses = [] ∨ ∃ op, s.accesses.head? = some ⟨s.cpu.regs.pc,op,.read⟩ := by
  obtain ⟨result,t,-,turn⟩ := s.exists_turn
  cases turn with
  | entered line accepted => simp [refused] at accepted
  | failed _ course made | passed _ course made =>
    rw [made]
    exact course.starts.imp_right fun first => ⟨_,first⟩

private theorem eq_of_vector_eq : ∀ l k : Line, vector l = vector k → l = k := by
  decide

theorem accepted_of_enters (entered : s.Enters line t) : s.accepted = some line := by
  cases accepted : s.accepted with
  | none =>
    have first := accesses_of_refused accepted
    simp [entered.accesses] at first
  | some other =>
    have same := (enters_of_accepted accepted).step.symm.trans entered.step
    cases same
    have place : vector other = vector line := congrArg Registers.pc entered.regs
    rw [eq_of_vector_eq _ _ place]

theorem Executes.unique {j : Instr} (first : s.Executes i) (again : s.Executes j) : i = j := by
  obtain ⟨op,head,decoded⟩ := first
  obtain ⟨op',head',decoded'⟩ := again
  cases head.symm.trans head'
  exact Option.some.inj (decoded.symm.trans decoded')

variable {moves : List Move}

theorem cpu_perform {move : Move} (other : move ≠ .step) : (s.perform move).cpu = s.cpu := by
  cases move with
  | step => exact absurd rfl other
  | _ => rfl

theorem trail_cons {move : Move} (other : move ≠ .step) :
    s.trail (move :: moves) = (s.perform move).trail moves := by
  cases move with
  | step => exact absurd rfl other
  | _ => rfl

end System
end Sm83
