import Sm83.Cpu.Execute

/-!
The processor at work. In a step it wakes if it has to, fetches an opcode and carries out its
instruction; the dispatch of an interrupt is a step that its surroundings ask for.
-/
namespace Sm83
namespace Exec
variable {σ : Type} [Bus σ]

/-- The opcode at PC. After the HALT bug PC stays in place once. -/
@[specialize] def fetchOpcode : Exec σ UInt8 := do
  let op ← read (← regs).pc
  update fun c =>
    if c.haltBug then {c with haltBug := false}
    else {c with regs := {c.regs with pc := c.regs.pc + 1}}
  return op

def fail (fault : Fault) : Exec σ (Except Fault Nat) := do
  update fun c => {c with fault := some fault}
  return .error fault

/-- Goes on with the opcode fetched at `pc`, as the table has it. -/
@[specialize] def carryOut (op : UInt8) (pc : UInt16) : Entry → Exec σ (Except Fault Nat)
  | .runs instr => do
    execute instr
    return .ok (← get).cpu.cycles
  | .illegal => fail (.illegal op pc)
  | .unimplemented => fail (.unimplemented (.primary op) pc)

@[specialize] def executeNext : Exec σ (Except Fault Nat) := do
  let pc := (← regs).pc
  let op ← fetchOpcode
  carryOut op pc (entry op)

/-- A halted processor sleeps on, in no time, until an interrupt waits; waking takes an internal step. -/
@[specialize] def step : Exec σ (Except Fault Nat) := do
  match (← get).cpu.fault with
  | some fault => return .error fault
  | none =>
    update fun c => {c with cycles := 0, eiDelay := false}
    if (← get).cpu.halted then
      if ← interruptWaits then
        update Cpu.wake
        idle
        executeNext
      else return .ok 0
    else executeNext

@[specialize] def dispatch (a : UInt16) : Exec σ Nat := do
  update fun c => {c with cycles := 0, ime := false, eiDelay := false, halted := false}
  idle
  idle
  push (← regs).pc
  idle
  jumpTo a
  return (← get).cpu.cycles

/-- Counts the steps that succeed on from `done`. -/
def stepUntil (target : Option UInt16) : Nat → Nat → Exec σ (Nat × Option Fault)
  | 0,done => return (done,none)
  | n + 1,done => do
    if target == some (← regs).pc then return (done,none)
    match ← step with
    | .ok _ => stepUntil target n (done + 1)
    | .error fault => return (done,some fault)

end Exec
end Sm83
