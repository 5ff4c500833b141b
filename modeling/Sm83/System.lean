import Sm83.Cpu.Run
import Sm83.System.Bus

/-!
The test system: a processor on its bus, and a clock. A step lets the processor act and then runs
the peripherals for as long as that took.
-/
namespace Sm83

structure System extends Machine SystemBus where
  /-- The clocks that have passed, asleep or awake. -/
  clock : Nat := 0

inductive Stop
  | condition
  | budget
deriving DecidableEq

namespace System

def powerOn : System := {bus := {}}

/-- The processor's part of a step: it enters the handler of the first line that waits, if it
accepts interrupts, and otherwise goes on with its program. -/
@[inline] def act (m : Machine SystemBus) : Except Fault Nat × Machine SystemBus :=
  match m.bus.interrupts.highest,m.cpu.acceptsInterrupts with
  | some line,true =>
    let (spent,m) := (Exec.dispatch (vector line)).run
      {m with bus := m.bus.acknowledge line.bit}
    (.ok spent,m)
  | _,_ => Exec.step.run m

/-- One step and the clocks it took. Asleep, four clocks pass; after a fault, none. -/
def step : System → Except Fault Nat × System
  | ⟨m,clock⟩ =>
    match act m with
    | (.error fault,m) => (.error fault,⟨m,clock⟩)
    | (.ok spent,⟨cpu,bus⟩) =>
      let elapsed := if spent = 0 then 4 else spent
      (.ok elapsed,⟨⟨cpu,bus.tick elapsed⟩,clock + elapsed⟩)

theorem clock_lt_of_step {s t : System} {n : Nat} (h : s.step = (.ok n,t)) : s.clock < t.clock := by
  obtain ⟨m,clock⟩ := s
  simp only [step] at h
  split at h <;> simp only [Prod.mk.injEq,reduceCtorEq,false_and] at h
  rw [← h.2]
  dsimp only
  split <;> omega

/-- Someone who follows a run: told of each state before its step, and of each state reached, upon
which they may end the run. -/
structure Observer (ω : Type) where
  leaving : System → ω → ω
  reached : System → ω → Bool × ω

/-- Steps until a fault, until the observer ends the run, or until the clock reaches the deadline,
tested in this order. -/
@[specialize] def runUntil {ω : Type} (o : Observer ω) (deadline : Nat) (s : System) (w : ω) :
    Except Fault Stop × System × ω :=
  if s.clock < deadline then
    let w := o.leaving s w
    match h : s.step with
    | (.error fault,t) => (.error fault,t,w)
    | (.ok _,t) =>
      have := clock_lt_of_step h
      match o.reached t w with
      | (true,w) => (.ok .condition,t,w)
      | (false,w) => runUntil o deadline t w
  else (.ok .budget,s,w)
termination_by deadline - s.clock

/-- No run goes on beyond this. -/
def lastClock : Nat := 0xFFFFFFFFFFFFFFFF

def deadline (s : System) (budget : Nat) : Nat := min (s.clock + budget) lastClock

/-- Runs until a fault, until `done`, or until the budget of clocks is spent. -/
@[specialize] def run (budget : Nat) (done : System → Bool) (s : System) : Except Fault Stop × System :=
  let (result,t,()) := runUntil ⟨fun _ _ => (),fun t _ => (done t,())⟩ (s.deadline budget) s ()
  (result,t)

end System
end Sm83
