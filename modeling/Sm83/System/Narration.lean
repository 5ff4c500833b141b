import Sm83.System
import Sm83.Cpu.Narration

/-!
What the test system tells about its work. In a step the processor's events come first, then the
bytes that it sent, then the timer.
-/
namespace Sm83

namespace SystemBus

def narrateSent (before after : SystemBus) : List Event :=
  (after.serial.extract before.serial.size).toList.map .sent

def narrateTick (b : SystemBus) (clocks : Nat) : List Event :=
  if (b.timer.tick clocks).2 then [.reloaded b.timer.tma] else []

end SystemBus

namespace System

def narrateAct (m : Machine SystemBus) : List Event :=
  match m.bus.interrupts.highest,m.cpu.acceptsInterrupts with
  | some line,true => m.narrateDispatch (vector line)
  | _,_ => m.narrateStep

def narrateStep (s : System) : List Event :=
  let (result,m) := act s.toMachine
  narrateAct s.toMachine ++ s.bus.narrateSent m.bus ++ match result with
    | .error _ => []
    | .ok spent => m.bus.narrateTick (if spent = 0 then 4 else spent)

/-- A run that collects, for a listener, the records of all that happens. The condition may carry
a memory of its own along. -/
@[specialize] def runNarrated {ω : Type} (listening : Bool) (budget : Nat)
    (done : System → ω → Bool × ω) (s : System) (w : ω) : Except Fault Stop × System × Array Log.Record :=
  let leaving (s : System) (log : Array Log.Record) :=
    if listening then log ++ s.narrateStep.map Event.record else log
  let observer : Observer (ω × Array Log.Record) := {
    leaving := fun s (w,log) => (w,leaving s log)
    reached := fun s (w,log) =>
      let (stop,w) := done s w
      (stop,w,log)}
  let (result,t,_,log) := runUntil observer (s.deadline budget) s (w,#[])
  match result with
  | .ok .budget => (result,t,log.push (Event.exhausted budget t.cpu.regs.pc).record)
  | _ => (result,t,log)

end System
end Sm83
