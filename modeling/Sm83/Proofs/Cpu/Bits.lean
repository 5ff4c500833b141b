import Sm83.Proofs.Alu.Bits
import Sm83.Proofs.Cpu.Effect
import Sm83.Proofs.Cpu.Outcome
import Sm83.Proofs.Opcodes

/-!
The opcodes after the prefix 0xCB, and the rotations of the accumulator. Main statement: `bits_of_step`, by
which the result depends on the byte and on C, whichever register or place in memory holds the byte.
-/
namespace Sm83

namespace BitInstr

def operand : BitInstr → Operand
  | shift _ o | test _ o | reset _ o | set _ o => o

/-- The byte that goes back into its place, if one does, and the flags. -/
def outcome (f : Flags) (v : UInt8) : BitInstr → Option UInt8 × Flags
  | shift op _ => (some (Alu.shift op f .ofResult v).1,(Alu.shift op f .ofResult v).2)
  | test b _ => (none,Alu.testBit f b v)
  | reset b _ => (some (Alu.resetBit b v),f)
  | set b _ => (some (Alu.setBit b v),f)

end BitInstr

namespace Machine
variable {σ : Type} [Bus σ]

/-- The processor goes on with the opcode `next` after the prefix, and its operand holds `v`. -/
structure Prefixed (m : Machine σ) (next : Nat) (o : Operand) (v : UInt8) : Prop where
  running : m.cpu.Running
  escape : m.opcode = 0xCB
  next : m.begun.opcode = .ofNat next
  byte : m.begun.passed.byte (.operand o) = v

end Machine

namespace Exec
variable {σ : Type} [Bus σ] {m : Machine σ}

private theorem run_executeBit (i : BitInstr) (m : Machine σ) :
    let made := i.outcome m.cpu.regs.flags (m.byte (.operand i.operand))
    let left := {m.cpu.regs with flags := made.2}
    ((executeBit i).run m).2.cpu.regs = made.1.elim left (left.put · i.operand) ∧
      accesses (fun _ => executeBit i) m =
        m.looks (.operand i.operand) ++ made.1.elim [] (i.operand.stores m.cpu.regs.hl) := by
  cases i with
  | shift op o | test b o | reset b o | set b o => cases o <;> exact ⟨rfl,rfl⟩

theorem leaves_of_prefixed {next : Nat} {v : UInt8} {i : BitInstr} (prefixed : m.Prefixed next i.operand v)
    (decoded : BitInstr.decode (.ofNat next) = i) :
    let made := i.outcome m.cpu.regs.flags v
    let left := {m.cpu.regs with flags := made.2, pc := m.cpu.regs.pc + 2}
    Leaves m (made.1.elim left (left.put · i.operand)) m.cpu.ime
      (m.code 1 ++ (m.begun.passed.looks (.operand i.operand) ++
        made.1.elim [] (i.operand.stores m.cpu.regs.hl))) := by
  obtain ⟨running,escape,here,rfl⟩ := prefixed
  rw [← here] at decoded
  intro made left
  have extended : Instr.decode m.opcode = some .extended := by rw [escape]; rfl
  have leaves := leaves_of_execute running extended rfl
  have run : (execute .extended).run m.begun = (executeBit i).run m.begun.passed := by rw [← decoded]; rfl
  have looks : accesses (fun _ => execute .extended) m.begun =
      m.begun.fetch :: accesses (fun _ => executeBit i) m.begun.passed := by
    rw [← decoded]
    exact Routine.accesses_bind Routine.fetch (fun op => Routine.executeBit (.decode op)) m.begun
  obtain ⟨regs,data⟩ := run_executeBit i m.begun.passed
  rw [run,looks,regs,data] at leaves
  simp only [left,made,UInt16.add_two]
  exact leaves

def Replaces (m : Machine σ) (o : Operand) (result : UInt8) (flags : Flags) : Prop :=
  Leaves m ({m.cpu.regs with flags := flags, pc := m.cpu.regs.pc + 2}.put result o) m.cpu.ime
    (m.code 1 ++ (m.begun.passed.looks (.operand o) ++ o.stores m.cpu.regs.hl result))

theorem leaves_rotateA (running : m.cpu.Running) {op : ShiftOp}
    (decoded : Instr.decode m.opcode = some (.rotateA op)) :
    let made := Alu.shift op m.cpu.regs.flags .ofResult m.cpu.regs.a
    Leaves m {m.cpu.regs with a := made.1, flags := {made.2 with z := false}, pc := m.cpu.regs.pc + 1}
      m.cpu.ime (m.code 0) :=
  leaves_of_execute running decoded rfl

/-- An opcode after the prefix works on one of the seven registers or on the byte at HL, which it reads
once and, unless it tests a bit, writes once. What it makes of the byte `v` and of C is the same in all of
them, and so it is for the rotations of the accumulator, but that they clear Z. -/
theorem bits_of_step (k : Fin 8) (c : Bool) (v : UInt8) :
    let shift : Fin 8 → ShiftOp := ![.rlc,.rrc,.rl,.rr,.sla,.sra,.swap,.srl]
    let operand : Fin 8 → Operand := ![.reg .b,.reg .c,.reg .d,.reg .e,.reg .h,.reg .l,.atHL,.reg .a]
    (∃ result flags, Alu.Shifted (shift k) c v result flags ∧
      (∀ (σ : Type) [Bus σ] (m : Machine σ) (j : Fin 8), m.Prefixed (8 * k + j) (operand j) v →
        m.cpu.regs.flags.c = c → Replaces m (operand j) result flags) ∧
      ∀ (σ : Type) [Bus σ] (m : Machine σ), m.cpu.Running → m.opcode = .ofNat (0x07 + 8 * k) →
        k.val < 4 → m.cpu.regs.a = v → m.cpu.regs.flags.c = c →
          Leaves m {m.cpu.regs with a := result, flags := {flags with z := false}, pc := m.cpu.regs.pc + 1}
            m.cpu.ime (m.code 0)) ∧
    (∀ (σ : Type) [Bus σ] (m : Machine σ) (j : Fin 8), m.Prefixed (0x40 + 8 * k + j) (operand j) v →
      m.cpu.regs.flags.c = c →
        Leaves m
          {m.cpu.regs with
            flags := {z := !v.toNat.testBit k, n := false, h := true, c := c}, pc := m.cpu.regs.pc + 2}
          m.cpu.ime (m.code 1 ++ m.begun.passed.looks (.operand (operand j)))) ∧
    (∃ result : UInt8, (∀ i < 8, result.toNat.testBit i = (!decide (i = k) && v.toNat.testBit i)) ∧
      ∀ (σ : Type) [Bus σ] (m : Machine σ) (j : Fin 8), m.Prefixed (0x80 + 8 * k + j) (operand j) v →
        Replaces m (operand j) result m.cpu.regs.flags) ∧
    (∃ result : UInt8, (∀ i < 8, result.toNat.testBit i = (decide (i = k) || v.toNat.testBit i)) ∧
      ∀ (σ : Type) [Bus σ] (m : Machine σ) (j : Fin 8), m.Prefixed (0xC0 + 8 * k + j) (operand j) v →
        Replaces m (operand j) result m.cpu.regs.flags) := by
  intro shift operand
  refine ⟨⟨_,_,Alu.shifted_shift v (shift k) {c := c},?_,?_⟩,?_,
    ⟨Alu.resetBit k v,fun i inside => Alu.testBit_resetBit v k inside,?_⟩,
    ⟨Alu.setBit k v,fun i _ => Alu.testBit_setBit v k,?_⟩⟩
  · rintro σ _ m j prefixed rfl
    exact leaves_of_prefixed (i := .shift _ _) prefixed (opcodeMap.shift k j)
  · rintro σ _ m running code rotates rfl rfl
    have decoded : Instr.decode m.opcode = some (.rotateA (shift k)) := by
      rw [code]
      exact opcodeMap.rotateA k rotates
    exact leaves_rotateA running decoded
  · rintro σ _ m j prefixed rfl
    have leaves := leaves_of_prefixed (i := .test _ _) prefixed (opcodeMap.test k j)
    rw [← Alu.testBit_eq,← List.append_nil (m.begun.passed.looks _)]
    exact leaves
  · intro σ _ m j prefixed
    exact leaves_of_prefixed (i := .reset _ _) prefixed (opcodeMap.reset k j)
  · intro σ _ m j prefixed
    exact leaves_of_prefixed (i := .set _ _) prefixed (opcodeMap.set k j)

/-- The accumulator and the byte at HL are both 1. -/
def turning (code : List UInt8) : Machine FlatBus where
  cpu := {regs := {a := 0x01, l := 0x20, pc := 0x0010}}
  bus := {memory := (Memory.zero.store 0x0010 code).write 0x0020 0x01}

/-- `RR (HL)`, `RR A` and `RRA` all move the bit into C, and `RRA` alone leaves Z clear. -/
theorem bits_of_step_turning :
    Leaves (turning [0xCB,0x1E]) {a := 0x01, flags := {z := true, c := true}, l := 0x20, pc := 0x0012} false
      [⟨0x0010,0xCB,.read⟩,⟨0x0011,0x1E,.read⟩,⟨0x0020,0x01,.read⟩,⟨0x0020,0x00,.write⟩] ∧
    Leaves (turning [0xCB,0x1F]) {a := 0x00, flags := {z := true, c := true}, l := 0x20, pc := 0x0012} false
      [⟨0x0010,0xCB,.read⟩,⟨0x0011,0x1F,.read⟩] ∧
    Leaves (turning [0x1F]) {a := 0x00, flags := {c := true}, l := 0x20, pc := 0x0011} false
      [⟨0x0010,0x1F,.read⟩] := by
  obtain ⟨⟨result,flags,law,replaces,rotates⟩,-⟩ := bits_of_step (threeBits 3) false 0x01
  obtain ⟨rfl,rfl⟩ := law.unique (Alu.shifted_shift 0x01 .rr {})
  have running (code : List UInt8) : (turning code).cpu.Running := ⟨rfl,rfl,rfl⟩
  have atHL : (turning [0xCB,0x1E]).Prefixed 0x1E .atHL 0x01 :=
    ⟨running _,by decide +kernel,by decide +kernel,by decide +kernel⟩
  have inA : (turning [0xCB,0x1F]).Prefixed 0x1F (.reg .a) 0x01 :=
    ⟨running _,by decide +kernel,by decide +kernel,by decide +kernel⟩
  refine ⟨?_,?_,?_⟩
  · have leaves := replaces FlatBus _ (threeBits 6) atHL rfl
    exact leaves.congr (by decide +kernel) (by decide +kernel)
  · have leaves := replaces FlatBus _ (threeBits 7) inA rfl
    exact leaves.congr (by decide +kernel) (by decide +kernel)
  · have leaves := rotates FlatBus _ (running [0x1F]) (by decide +kernel) (by decide) rfl rfl
    exact leaves.congr (by decide +kernel) (by decide +kernel)

end Exec
end Sm83
