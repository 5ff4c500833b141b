import Sm83.Cpu.Run

/-!
The shape of the processor's work. Every instruction, and a whole step, is put together from accesses
to the bus, internal steps and changes of the processor: `Routine` says so, with a bound on the writes
and a limit on the changes, and it is the induction by which later modules show what all of them have
in common. Main statements: `Routine.execute_plain`, `Routine.execute` and `Routine.step`.
-/
namespace Sm83

abbrev Program (α : Type) := (σ : Type) → [Bus σ] → Exec σ α

namespace Exec

def onCpu {σ α : Type} (f : Cpu → α × Cpu) : Exec σ α := fun m => ((f m.cpu).1,{m with cpu := (f m.cpu).2})

end Exec

/-- A program with at most `n` writes, all of whose changes of the processor `U` allows. -/
inductive Routine (U : (α : Type) → (Cpu → α × Cpu) → Prop) : Nat → {α : Type} → Program α → Prop
  | pure {α : Type} (a : α) : Routine U 0 fun _ => Pure.pure a
  | bind {α β : Type} {k n : Nat} {x : Program α} {f : α → Program β} (first : Routine U k x)
      (next : ∀ a, Routine U n (f a)) : Routine U (k + n) fun σ => x σ >>= fun a => f a σ
  | onCpu {α : Type} (f : Cpu → α × Cpu) (allowed : U α f) : Routine U 0 fun _ => Exec.onCpu f
  | idle : Routine U 0 fun _ => Exec.idle
  | read (a : UInt16) : Routine U 0 fun _ => Exec.read a
  | write (a : UInt16) (v : UInt8) : Routine U 1 fun _ => Exec.write a v
  | interruptWaits : Routine U 0 fun _ => Exec.interruptWaits
  | more {α : Type} {k n : Nat} {x : Program α} (r : Routine U k x) (le : k ≤ n) : Routine U n x

def RegsOnly (α : Type) (f : Cpu → α × Cpu) : Prop :=
  ∃ g : Registers → α × Registers, ∀ c, f c = ((g c.regs).1,{c with regs := (g c.regs).2})

def Steady (α : Type) (f : Cpu → α × Cpu) : Prop :=
  ∀ c cycles total fault,
    f {c with cycles := cycles, total := total, fault := fault} =
      ((f c).1,{(f c).2 with cycles := cycles, total := total, fault := fault})

def Unrestricted (α : Type) (_ : Cpu → α × Cpu) : Prop := True

theorem RegsOnly.steady {α : Type} {f : Cpu → α × Cpu} (h : RegsOnly α f) : Steady α f := by
  obtain ⟨g,same⟩ := h
  intro c cycles total fault
  rw [same,same]

namespace Instr

/-- The instruction leaves the interrupt switches and the sleep of the processor alone. -/
def isPlain : Instr → Bool
  | halt | stop | di | ei | reti => false
  | _ => true

def storesWord : Instr → Bool
  | push _ | call _ | rst _ | storeSP => true
  | _ => false

end Instr

namespace Routine
variable {U V : (α : Type) → (Cpu → α × Cpu) → Prop}

theorem quiet {α : Type} {n : Nat} {x : Program α} (r : Routine U 0 x) : Routine U n x :=
  r.more n.zero_le

theorem mono {α : Type} {n : Nat} {x : Program α} (sub : ∀ α f, U α f → V α f) (r : Routine U n x) :
    Routine V n x := by
  induction r with
  | pure a => exact .pure a
  | bind _ _ first next => exact .bind first next
  | onCpu f allowed => exact .onCpu f (sub _ f allowed)
  | idle => exact .idle
  | read a => exact .read a
  | write a v => exact .write a v
  | interruptWaits => exact .interruptWaits
  | more _ le ih => exact .more ih le

theorem steady {α : Type} {n : Nat} {x : Program α} (r : Routine RegsOnly n x) : Routine Steady n x :=
  r.mono fun _ _ => RegsOnly.steady

theorem free {α : Type} {n : Nat} {x : Program α} (r : Routine U n x) : Routine Unrestricted n x :=
  r.mono fun _ _ _ => trivial

theorem branch {k : Nat} {x : Program Unit} (r : Routine U k x) (b : Bool) :
    Routine U k fun σ => if b then x σ else Pure.pure () := by
  cases b with
  | false => exact (pure ()).quiet
  | true => exact r

theorem regs : Routine RegsOnly 0 fun _ => Exec.regs :=
  .onCpu (fun c => (c.regs,c)) ⟨fun r => (r,r),fun _ => rfl⟩

theorem updateRegs (f : Registers → Registers) : Routine RegsOnly 0 fun _ => Exec.updateRegs f :=
  .onCpu (fun c => ((),{c with regs := f c.regs})) ⟨fun r => ((),f r),fun _ => rfl⟩

theorem fetch : Routine RegsOnly 0 fun _ => Exec.fetch :=
  regs.bind fun r => (read r.pc).bind fun v => (updateRegs _).bind fun _ => pure v

theorem fetchWord : Routine RegsOnly 0 fun _ => Exec.fetchWord :=
  fetch.bind fun lo => fetch.bind fun hi => pure (word hi lo)

theorem readOperand (o : Operand) : Routine RegsOnly 0 fun _ => Exec.readOperand o := by
  cases o with
  | reg r => exact regs.bind fun x => pure (x.get8 r)
  | atHL => exact regs.bind fun x => read x.hl

theorem writeOperand (o : Operand) (v : UInt8) : Routine RegsOnly 1 fun _ => Exec.writeOperand o v := by
  cases o with
  | reg r => exact quiet (updateRegs fun x => x.set8 v r)
  | atHL => exact regs.bind fun x => write x.hl v

theorem push (w : UInt16) : Routine RegsOnly 2 fun _ => Exec.push w :=
  (updateRegs _).bind fun _ => regs.bind fun r => (write r.sp (highByte w)).bind fun _ =>
    (updateRegs _).bind fun _ => regs.bind fun r => write r.sp (lowByte w)

theorem pop : Routine RegsOnly 0 fun _ => Exec.pop :=
  regs.bind fun r => (read r.sp).bind fun lo => (updateRegs _).bind fun _ =>
    regs.bind fun r => (read r.sp).bind fun hi => (updateRegs _).bind fun _ => pure (word hi lo)

theorem point (p : Pointer) : Routine RegsOnly 0 fun _ => Exec.point p := by
  cases p with
  | bc | de => exact regs.bind fun r => pure _
  | hlUp | hlDown => exact regs.bind fun r => (updateRegs _).bind fun _ => pure r.hl

theorem setA (v : UInt8) : Routine RegsOnly 0 fun _ => Exec.setA v := updateRegs _

theorem jumpTo (a : UInt16) : Routine RegsOnly 0 fun _ => Exec.jumpTo a := updateRegs _

theorem taken (cond : Option Cond) : Routine RegsOnly 0 fun _ => Exec.taken cond :=
  regs.bind fun _ => pure _

theorem callTo (a : UInt16) : Routine RegsOnly 2 fun _ => Exec.callTo a :=
  idle.bind fun _ => regs.bind fun r => (push r.pc).bind fun _ => jumpTo a

theorem returnBack : Routine RegsOnly 0 fun _ => Exec.returnBack :=
  pop.bind fun a => idle.bind fun _ => jumpTo a

theorem executeBit (i : BitInstr) : Routine RegsOnly 1 fun _ => Exec.executeBit i := by
  cases i with
  | shift op o =>
    exact (readOperand o).bind fun v => regs.bind fun r => (updateRegs _).bind fun _ => writeOperand o _
  | test bit o => exact ((readOperand o).bind fun v => updateRegs _).quiet
  | reset bit o | set bit o => exact (readOperand o).bind fun v => writeOperand o _

theorem execute_plain (i : Instr) (plain : i.isPlain) :
    Routine RegsOnly (if i.storesWord then 2 else 1) fun _ => Exec.execute i := by
  cases i with
  | halt | stop | di | ei | reti => cases plain
  | nop => exact (pure ()).quiet
  | load dst src => exact (readOperand src).bind fun v => writeOperand dst v
  | loadImm dst => exact fetch.bind fun v => writeOperand dst v
  | loadPair dst => exact (fetchWord.bind fun w => updateRegs _).quiet
  | storeVia p => exact (point p).bind fun a => regs.bind fun r => write a r.a
  | loadVia p => exact ((point p).bind fun a => (read a).bind fun v => setA v).quiet
  | storeHigh => exact fetch.bind fun lo => regs.bind fun r => write _ r.a
  | loadHigh => exact (fetch.bind fun lo => (read _).bind fun v => setA v).quiet
  | storeHighC => exact regs.bind fun r => write _ r.a
  | loadHighC => exact (regs.bind fun r => (read _).bind fun v => setA v).quiet
  | storeAbs => exact fetchWord.bind fun a => regs.bind fun r => write a r.a
  | loadAbs => exact (fetchWord.bind fun a => (read a).bind fun v => setA v).quiet
  | storeSP => exact fetchWord.bind fun a => regs.bind fun r => (write a _).bind fun _ => write (a + 1) _
  | loadSP => exact (idle.bind fun _ => updateRegs _).quiet
  | loadOffset => exact (fetch.bind fun e => idle.bind fun _ => updateRegs _).quiet
  | push p => exact regs.bind fun r => idle.bind fun _ => push (r.get16 p)
  | pop p => exact (pop.bind fun w => updateRegs _).quiet
  | alu op src => exact ((readOperand src).bind fun v => updateRegs _).quiet
  | aluImm op => exact (fetch.bind fun v => updateRegs _).quiet
  | inc dst | dec dst =>
    exact (readOperand dst).bind fun v => regs.bind fun r => (updateRegs _).bind fun _ => writeOperand dst _
  | incPair p | decPair p | addHL p => exact (idle.bind fun _ => updateRegs _).quiet
  | addSP => exact (fetch.bind fun e => idle.bind fun _ => idle.bind fun _ => updateRegs _).quiet
  | rotateA op => exact quiet (updateRegs fun r => r.rotateA op)
  | daa => exact quiet (updateRegs Registers.decimalAdjust)
  | cpl => exact quiet (updateRegs Registers.complement)
  | scf => exact quiet (updateRegs fun r => r.putCarry true)
  | ccf => exact quiet (updateRegs fun r => r.putCarry !r.flags.c)
  | jumpHL => exact quiet (updateRegs fun r => {r with pc := r.hl})
  | jump cond =>
    exact (fetchWord.bind fun a => (taken cond).bind fun b =>
      branch (idle.bind fun _ => jumpTo a) b).quiet
  | jumpRel cond =>
    exact (fetch.bind fun e => (taken cond).bind fun b =>
      branch (idle.bind fun _ => updateRegs _) b).quiet
  | call cond => exact fetchWord.bind fun a => (taken cond).bind fun b => branch (callTo a) b
  | rst target => exact callTo _
  | ret cond =>
    cases cond with
    | none => exact returnBack.quiet
    | some cond =>
      exact (idle.bind fun _ => regs.bind fun r => branch returnBack (cond.holds r.flags)).quiet
  | extended => exact fetch.bind fun op => executeBit _

theorem update (f : Cpu → Cpu) (same : Steady Unit fun c => ((),f c)) :
    Routine Steady 0 fun _ => Exec.update f := .onCpu (fun c => ((),f c)) same

theorem execute (i : Instr) : Routine Steady (if i.storesWord then 2 else 1) fun _ => Exec.execute i := by
  by_cases plain : i.isPlain
  · exact (execute_plain i plain).steady
  · cases i with
    | halt =>
      refine (interruptWaits.bind fun waits => update _ ?_).quiet
      intro c cycles total fault
      dsimp only
      split <;> rfl
    | stop => exact (fetch.steady.bind fun _ => update _ fun _ _ _ _ => rfl).quiet
    | di => exact quiet (update (fun c => {c with ime := false, eiDelay := false}) fun _ _ _ _ => rfl)
    | ei =>
      exact quiet (update (fun c => {c with ime := true, eiDelay := c.eiDelay || !c.ime})
        fun _ _ _ _ => rfl)
    | reti => exact (returnBack.steady.bind fun _ => update _ fun _ _ _ _ => rfl).quiet
    | _ => exact absurd rfl plain

theorem look {α : Type} (g : Cpu → α) : Routine Unrestricted 0 fun _ => Exec.onCpu fun c => (g c,c) :=
  .onCpu _ trivial

theorem change (f : Cpu → Cpu) : Routine Unrestricted 0 fun _ => Exec.update f :=
  .onCpu (fun c => ((),f c)) trivial

theorem fetchOpcode : Routine Unrestricted 0 fun _ => Exec.fetchOpcode :=
  regs.free.bind fun r => (read r.pc).bind fun op => (change _).bind fun _ => pure op

theorem fail (fault : Fault) : Routine Unrestricted 2 fun _ => Exec.fail fault :=
  ((change _).bind fun _ => pure _).quiet

theorem carryOut (op : UInt8) (pc : UInt16) (e : Entry) :
    Routine Unrestricted 2 fun _ => Exec.carryOut op pc e := by
  cases e with
  | illegal | unimplemented => exact fail _
  | runs i =>
    refine bind (n := 0) ((execute i).free.more (by split <;> decide)) fun _ => ?_
    exact look fun c => Except.ok c.cycles

theorem executeNext : Routine Unrestricted 2 fun _ => Exec.executeNext :=
  regs.free.bind fun r => fetchOpcode.bind fun op => carryOut op r.pc (entry op)

private def proceed (halted : Bool) : Program (Except Fault Nat) := fun _ => do
  if halted then
    if ← Exec.interruptWaits then
      Exec.update Cpu.wake
      Exec.idle
      Exec.executeNext
    else return .ok 0
  else Exec.executeNext

private theorem routine_proceed (halted : Bool) : Routine Unrestricted 2 (proceed halted) := by
  cases halted with
  | false => exact executeNext
  | true =>
    refine interruptWaits.bind (n := 2) fun waits => ?_
    cases waits with
    | false => exact (pure _).quiet
    | true => exact (change _).bind fun _ => idle.bind fun _ => executeNext

private def attempt (fault : Option Fault) : Program (Except Fault Nat) := fun σ =>
  fault.elim ((Exec.update fun c => {c with cycles := 0, eiDelay := false}) >>= fun _ =>
    (Exec.onCpu fun c => (c.halted,c)) >>= fun halted => proceed halted σ)
    fun fault => Pure.pure (.error fault)

private theorem routine_attempt (fault : Option Fault) : Routine Unrestricted 2 (attempt fault) := by
  cases fault with
  | some fault => exact (pure _).quiet
  | none => exact (change _).bind fun _ => (look Cpu.halted).bind routine_proceed

theorem step : Routine Unrestricted 2 fun _ => Exec.step := by
  have same : (fun σ [Bus σ] => Exec.step : Program (Except Fault Nat)) =
      fun σ [Bus σ] => (Exec.onCpu fun c => (c.fault,c)) >>= fun fault => attempt fault σ := by
    funext σ bus m
    obtain ⟨⟨regs,ime,halted,eiDelay,haltBug,cycles,total,fault⟩,b⟩ := m
    cases fault <;> rfl
  rw [same]
  exact (look Cpu.fault).bind routine_attempt

end Routine
end Sm83
