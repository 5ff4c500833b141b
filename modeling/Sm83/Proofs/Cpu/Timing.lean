import Sm83.Proofs.Cpu.Outline

/-!
How long instructions take. `Instr.clocks` is the timing table; `clocks_of_step` says that a step
keeps to it, with four clocks for each access to the bus and each machine cycle in which it rests.
-/
namespace Sm83

/-- The clocks of an instruction after the opcode 0xCB, which is counted too. -/
def BitInstr.clocks : BitInstr → Nat
  | test _ o => if o = .atHL then 12 else 8
  | shift _ o | reset _ o | set _ o => if o = .atHL then 16 else 8

namespace Instr

/-- The clocks of an instruction, by the flags that it finds and the bytes after its opcode. -/
def clocks (f : Flags) (bytes : List UInt8) : Instr → Nat
  | jumpRel cond => if f.admits cond then 12 else 8
  | jump cond => if f.admits cond then 16 else 12
  | jumpHL => 4
  | call cond => if f.admits cond then 24 else 12
  | ret none | reti => 16
  | ret (some cond) => if f.admits (some cond) then 20 else 8
  | rst _ | push _ => 16
  | pop _ => 12
  | incPair _ | decPair _ | addHL _ | loadSP => 8
  | addSP => 16
  | loadOffset => 12
  | storeSP => 20
  | storeAbs | loadAbs => 16
  | loadPair _ | storeHigh | loadHigh => 12
  | storeHighC | loadHighC | storeVia _ | loadVia _ => 8
  | load dst src => if dst = .atHL ∨ src = .atHL then 8 else 4
  | alu _ src => if src = .atHL then 8 else 4
  | aluImm _ => 8
  | loadImm dst => if dst = .atHL then 12 else 8
  | inc dst | dec dst => if dst = .atHL then 12 else 4
  | extended => (BitInstr.decode (operandByte bytes)).clocks
  | stop => 8
  | nop | halt | di | ei | rotateA _ | daa | cpl | scf | ccf => 4

theorem clocks_eq {i : Instr} (encoded : i.isEncoded) (r : Registers) (bytes : List UInt8) :
    i.clocks r.flags bytes =
      4 * (1 + i.operandBytes + (i.places r bytes).length + i.internalSteps r.flags) := by
  cases i with
  | jump cond | jumpRel cond =>
    change (if r.flags.admits cond then _ else _) =
      4 * (1 + _ + 0 + if r.flags.admits cond then 1 else 0)
    split <;> rfl
  | call cond =>
    change (if r.flags.admits cond then 24 else 12) = 4 * (1 + 2 +
      (if r.flags.admits cond then _ else _ : List _).length + if r.flags.admits cond then 1 else 0)
    split <;> rfl
  | ret cond =>
    cases cond with
    | none => rfl
    | some cond =>
      change (if r.flags.admits (some cond) then 20 else 8) = 4 * (1 + 0 +
        (if r.flags.admits (some cond) then _ else _ : List _).length +
        if r.flags.admits (some cond) then 2 else 1)
      split <;> rfl
  | load dst src => cases dst <;> cases src <;> first | rfl | cases encoded
  | alu op o | loadImm o | inc o | dec o => cases o <;> rfl
  | extended =>
    change (BitInstr.decode (operandByte bytes)).clocks =
      4 * (1 + 1 + ((BitInstr.decode (operandByte bytes)).places r).length + 0)
    cases BitInstr.decode (operandByte bytes) with
    | shift op o | test bit o | reset bit o | set bit o => cases o <;> rfl
  | _ => rfl

theorem clocks_le (i : Instr) (f : Flags) (bytes : List UInt8) : i.clocks f bytes ≤ 24 := by
  cases i with
  | ret cond =>
    cases cond with
    | none => simp only [clocks]; decide
    | some cond => simp only [clocks]; split <;> decide
  | extended =>
    simp only [clocks]
    cases BitInstr.decode (operandByte bytes) <;> simp only [BitInstr.clocks] <;> split <;> decide
  | jump | jumpRel | call | load | alu | loadImm | inc | dec => simp only [clocks]; split <;> decide
  | _ => simp only [clocks]; decide

end Instr

namespace Exec
variable {σ : Type} [Bus σ] {m : Machine σ} {i : Instr}

theorem timing_of_step (clear : m.cpu.fault = none) (awake : m.cpu.halted → (Bus.interrupts m.bus).any)
    (decoded : Instr.decode m.opcode = some i) :
    let bytes := m.underway.stream i.operandBytes
    let n := (if m.cpu.halted then 4 else 0) + i.clocks m.cpu.regs.flags bytes
    (accesses (fun _ => step) m).length = 1 + i.operandBytes + (i.places m.cpu.regs bytes).length ∧
      ∃ t, step.run m = (.ok n,t) ∧ t.cpu.cycles = n ∧ t.cpu.total = m.cpu.total + n := by
  intro bytes n
  obtain ⟨data,t,run,made,places,cycles,total,-⟩ := outline_step clear awake decoded
  have length : (i.places m.cpu.regs bytes).length = data.length := by rw [← places,List.length_map]
  have spent : t.cpu.cycles = n := by
    rw [cycles,← length,← Instr.clocks_eq (Instr.isEncoded_of_decode decoded)]
  refine ⟨?_,t,?_,spent,?_⟩
  · rw [made,List.length_cons,List.length_append,Access.length_fetches,Machine.length_stream,length]
    omega
  · rw [run,spent]
  · rw [total,spent]

end Exec
end Sm83
