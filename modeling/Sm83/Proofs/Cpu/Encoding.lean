import Sm83.Proofs.Cpu.Outline

/-!
Instructions in memory. A step fetches as many bytes as its opcode is long and no more
(`fetches_of_step`), so that programs go on where the next instruction starts.
-/
namespace Sm83

theorem opcodeLength_of_decode {op : UInt8} {i : Instr} (decoded : Instr.decode op = some i) :
    opcodeLength op = i.operandBytes + 1 := by
  rw [opcodeLength_eq,decoded,Option.elim_some,Instr.length,Nat.add_comm]

namespace Exec
variable {σ : Type} [Bus σ] {m : Machine σ}

private theorem step_refused (clear : m.cpu.fault = none) (awake : m.cpu.halted = false)
    (illegal : Instr.decode m.opcode = none) :
    accesses (fun _ => step) m = [m.fetch] ∧
      (step.run m).2.cpu.regs.pc = m.underway.cpu.regs.pc := by
  cases run : step.run m with
  | mk result t =>
    cases course_of_step run with
    | latched f fault => simp [clear] at fault
    | asleep _ halted => simp [awake] at halted
    | refused _ _ _ made => exact ⟨made,rfl⟩
    | executed i _ _ decoded => simp [illegal] at decoded

/-- The bytes of an instruction are fetched in order, first of all and never again: what follows goes
to places that do not depend on PC. PC ends up behind the instruction unless that sends it elsewhere;
this is the address that a call leaves and that a relative jump starts from. -/
theorem fetches_of_step (clear : m.cpu.fault = none) (awake : m.cpu.halted = false)
    (unarmed : m.cpu.haltBug = false) :
    let r := m.cpu.regs
    let next := r.pc + UInt16.ofNat (opcodeLength m.opcode)
    let t := (step.run m).2
    ∃ operands data,
      accesses (fun _ => step) m = Access.fetches r.pc (m.opcode :: operands) ++ data ∧
      (m.opcode :: operands).length = opcodeLength m.opcode ∧
      (∀ a, data.map Access.place =
        (Instr.decode m.opcode).elim [] (Instr.places {r with pc := a} operands)) ∧
      ((∀ i, Instr.decode m.opcode = some i → i.transfers r.flags = false) → t.cpu.regs.pc = next) ∧
      (∀ i, Instr.decode m.opcode = some i → i.calls r.flags → data = Access.pushes r.sp next) ∧
      ∀ cond, Instr.decode m.opcode = some (.jumpRel cond) → r.flags.admits cond →
        t.cpu.regs.pc = next + signExtend (operandByte operands) := by
  intro r next t
  have pc : m.underway.cpu.regs.pc = r.pc + 1 := by rw [m.pc_underway,unarmed]; rfl
  cases decoded : Instr.decode m.opcode with
  | none =>
    obtain ⟨made,left⟩ := step_refused clear awake decoded
    have alone : opcodeLength m.opcode = 1 := by rw [opcodeLength_eq,decoded]; rfl
    refine ⟨[],[],made,alone.symm,fun a => rfl,fun stays => ?_,?_,?_⟩
    · rw [left,pc]
      simp only [next,alone]
      rfl
    · intro i found
      cases found
    · intro cond found
      cases found
  | some i =>
    obtain ⟨data,u,run,made,places,-,-,left,pushes⟩ := outline_step clear (by simp [awake]) decoded
    have after : m.underway.cpu.regs.pc + UInt16.ofNat i.operandBytes = next := by
      simp only [next,opcodeLength_of_decode decoded]
      rw [pc,Nat.add_comm,UInt16.ofNat_add,← UInt16.add_assoc]
      rfl
    have reached : t.cpu.regs.pc = _ := (congrArg (fun w => w.2.cpu.regs.pc) run).trans left
    rw [after] at reached pushes
    refine ⟨m.underway.stream i.operandBytes,data,?_,?_,?_,?_,?_,?_⟩
    · rw [made,pc]
      rfl
    · rw [List.length_cons,Machine.length_stream,opcodeLength_of_decode decoded]
    · intro a
      exact places.trans (i.places_pc r _ a).symm
    · intro stays
      exact reached.trans (Instr.destination_of_not_transfers (stays i rfl))
    · intro j found calls
      cases found
      exact pushes calls
    · intro cond found admitted
      cases found
      exact reached.trans (if_pos admitted)

/-- A processor at the call of a subroutine. -/
def departing : Machine FlatBus :=
  { cpu := {regs := {sp := 0xD000, pc := 0x0040}}
    bus := {memory := Memory.zero.store 0x0040 [0xCD,0x34,0x12]} }

theorem fetches_of_step_departing : Instr.decode departing.opcode = some (.call none) ∧
    ∃ operands, accesses (fun _ => step) departing =
      Access.fetches 0x0040 (0xCD :: operands) ++ Access.pushes 0xD000 0x0043 ∧ operands.length = 2 := by
  have opcode : departing.opcode = 0xCD := by decide +kernel
  have decoded : Instr.decode 0xCD = some (.call none) := by decide
  obtain ⟨operands,data,made,length,-,-,pushes,-⟩ := fetches_of_step (m := departing) rfl rfl rfl
  rw [opcode] at made length pushes
  refine ⟨by rw [opcode,decoded],operands,?_,?_⟩
  · rw [made,pushes _ decoded rfl]
    rfl
  · exact Nat.succ.inj length

end Exec
end Sm83
