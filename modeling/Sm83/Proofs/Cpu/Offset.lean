import Sm83.Proofs.Alu.Chain
import Sm83.Proofs.Cpu.Effect
import Sm83.Proofs.Cpu.Switches

/-!
The two instructions that add a signed byte to SP. Both leave the one sum, whose flags are those of its
low byte (`addSigned_eq`), and `LD HL,SP+e` gets it to SP as well if `LD SP,HL` follows: `offset_of_step`.
-/
namespace Sm83

/-- The byte above a signed one once that is widened to a word. -/
def signByte (e : UInt8) : UInt8 := if e < 0x80 then 0x00 else 0xFF

private theorem word_signByte (e : UInt8) : word (signByte e) e = signExtend e := by
  apply UInt16.toNat_inj.mp
  rw [toNat_word,toNat_signExtend,signByte]
  simp only [UInt8.lt_iff_toNat_lt,UInt8.reduceToNat]
  split
  · exact Nat.zero_add e.toNat
  · rfl

private theorem toInt_toInt8 (e : UInt8) :
    e.toInt8.toInt = if e.toNat < 128 then (e.toNat : Int) else e.toNat - 256 := by
  have signed : e.toInt8.toInt = if 2 * e.toNat < 256 then (e.toNat : Int) else e.toNat - 256 :=
    BitVec.toInt_eq_toNat_cond e.toBitVec
  rw [signed]
  split <;> split <;> omega

namespace Alu

theorem addSigned_eq (w : UInt16) (e : UInt8) :
    let low := add (lowByte w) e false
    let high := add (highByte w) (signByte e) low.2.c
    addSigned w e = (word high.1 low.1,{h := low.2.h, c := low.2.c}) := by
  intro low high
  obtain ⟨-,carry,half,-,-⟩ := sum_add (lowByte w) e false
  change low.2.c ↔ _ at carry
  change low.2.h ↔ _ at half
  simp only [toNat_lowByte,Bool.toNat_false,Nat.add_zero] at carry half
  have sum : w + signExtend e = word high.1 low.1 := by
    have whole := congrArg Prod.fst (addWord_eq {} w (signExtend e))
    rw [← word_signByte,highByte_word,lowByte_word] at whole
    rw [← word_signByte]
    exact whole
  have h : (addSigned w e).2.h = low.2.h := by
    rw [Bool.eq_iff_iff,half]
    simp only [addSigned,decide_eq_true_eq]
    omega
  have c : (addSigned w e).2.c = low.2.c := by
    rw [Bool.eq_iff_iff,carry]
    exact decide_eq_true_iff
  change (w + signExtend e,({h := (addSigned w e).2.h, c := (addSigned w e).2.c} : Flags)) = _
  rw [sum,h,c]

private theorem addSigned_value (w : UInt16) (e : UInt8) :
    ((addSigned w e).1.toNat : Int) = (w.toNat + e.toInt8.toInt) % 65536 := by
  have := e.toNat_lt
  change ((w + signExtend e).toNat : Int) = _
  rw [UInt16.toNat_add,toNat_signExtend,toInt_toInt8]
  split <;> omega

end Alu

namespace Exec
variable {σ : Type} [Bus σ] {m : Machine σ}

private theorem neutral_step {i : Instr} (clear : m.cpu.fault = none)
    (waking : m.cpu.halted → (Bus.interrupts m.bus).any) (decoded : Instr.decode m.opcode = some i)
    (plain : i.isPlain) : (step.run m).2.cpu.Neutral := by
  obtain ⟨regs,k,moved⟩ := run_execute i m.underway
  obtain ⟨closed,awake,unarmed,faultless⟩ := Machine.neutral_underway clear
  rw [run_step_fetched clear waking,decoded]
  dsimp only
  rw [moved,i.switch_plain plain]
  exact ⟨closed,awake,unarmed,faultless⟩

theorem execute_addSP : execute (σ := σ) .addSP = acquire .immediate >>= fun e => idle >>= fun _ =>
    idle >>= fun _ => updateRegs fun r =>
      {r with flags := (Alu.addSigned r.sp e).2, sp := (Alu.addSigned r.sp e).1} := rfl

theorem execute_loadOffset : execute (σ := σ) .loadOffset = acquire .immediate >>= fun e =>
    idle >>= fun _ => updateRegs fun r =>
      {r with flags := (Alu.addSigned r.sp e).2}.setHL (Alu.addSigned r.sp e).1 := rfl

section Sum
variable (clear : m.cpu.fault = none) (waking : m.cpu.halted → (Bus.interrupts m.bus).any)
variable {v : UInt16} {flags : Flags}
variable (sum : Alu.addSigned m.cpu.regs.sp (m.underway.byte .immediate) = (v,flags))
include clear waking sum

private theorem effect_addSP (here : m.opcode = 0xE8) :
    Effect m {m.cpu.regs with sp := v, flags := flags, pc := m.underway.past .immediate}
      (m.fetch :: m.underway.looks .immediate) := by
  have decoded : Instr.decode m.opcode = some .addSP := by rw [here]; rfl
  obtain ⟨t,regs,effect⟩ := effect_of_acquire
    (fun e => Routine.idle.bind fun _ => Routine.idle.bind fun _ => Routine.updateRegs _) clear waking
    decoded rfl fun _ _ => execute_addSP
  let left := Alu.addSigned t.cpu.regs.sp (m.underway.byte .immediate)
  change Effect m {t.cpu.regs with flags := left.2, sp := left.1} (m.fetch :: (_ ++ [])) at effect
  simp only [left,regs,sum,List.append_nil] at effect
  exact effect

private theorem effect_loadOffset (here : m.opcode = 0xF8) :
    Effect m ({m.cpu.regs with flags := flags, pc := m.underway.past .immediate}.setHL v)
      (m.fetch :: m.underway.looks .immediate) := by
  have decoded : Instr.decode m.opcode = some .loadOffset := by rw [here]; rfl
  obtain ⟨t,regs,effect⟩ := effect_of_acquire
    (fun e => Routine.idle.bind fun _ => Routine.updateRegs _) clear waking decoded rfl
    fun _ _ => execute_loadOffset
  let left := Alu.addSigned t.cpu.regs.sp (m.underway.byte .immediate)
  change Effect m ({t.cpu.regs with flags := left.2}.setHL left.1) (m.fetch :: (_ ++ [])) at effect
  simp only [left,regs,sum,List.append_nil] at effect
  exact effect

end Sum

private theorem effect_loadSP (neutral : m.cpu.Neutral) (here : m.opcode = 0xF9) :
    Effect m {m.cpu.regs with sp := m.cpu.regs.hl, pc := m.cpu.regs.pc + 1} [m.fetch] := by
  have decoded : Instr.decode m.opcode = some .loadSP := by rw [here]; rfl
  have effect := effect_of_execute neutral.clear (m.wakes_of_awake neutral.awake) decoded rfl
  have next : m.underway.cpu.regs.pc = m.cpu.regs.pc + 1 := by
    rw [m.pc_underway,neutral.unarmed]
    rfl
  change Effect m {m.underway.cpu.regs with sp := m.underway.cpu.regs.hl} [m.fetch] at effect
  rw [m.regs_underway,next] at effect
  exact effect

/-- `ADD SP,e` and `LD HL,SP+e` leave SP plus the signed byte `e`, in SP or in HL. Byte by byte that is a
sum of the low byte and `e`, which H and C are of, and one of the high byte and the sign of `e`. Once
`LD SP,HL` has followed `LD HL,SP+e`, SP and the flags are what one step of `ADD SP,e` makes of them,
wherever that stands. -/
theorem offset_of_step (clear : m.cpu.fault = none)
    (waking : m.cpu.halted → (Bus.interrupts m.bus).any) :
    let r := m.cpu.regs
    let e := m.underway.byte .immediate
    let past := m.underway.past .immediate
    let seen := m.fetch :: m.underway.looks .immediate
    let low := Alu.add (lowByte r.sp) e false
    let high := Alu.add (highByte r.sp) (signByte e) low.2.c
    let v := word high.1 low.1
    let flags : Flags := {z := false, n := false, h := low.2.h, c := low.2.c}
    (v.toNat : Int) = (r.sp.toNat + e.toInt8.toInt) % 65536 ∧
    (m.opcode = 0xE8 → Effect m {r with sp := v, flags := flags, pc := past} seen) ∧
    (m.opcode = 0xF8 →
      let t := (step.run m).2
      Effect m {r with h := high.1, l := low.1, flags := flags, pc := past} seen ∧
      (t.opcode = 0xF9 → Effect t {t.cpu.regs with sp := v, pc := past + 1} [t.fetch] ∧
        ∀ (τ : Type) [Bus τ] (n : Machine τ), n.cpu.fault = none →
          (n.cpu.halted → (Bus.interrupts n.bus).any) → n.opcode = 0xE8 → n.cpu.regs.sp = r.sp →
          n.underway.byte .immediate = e →
            (step.run n).2.cpu.regs.sp = (step.run t).2.cpu.regs.sp ∧
              (step.run n).2.cpu.regs.flags = (step.run t).2.cpu.regs.flags)) := by
  intro r e past seen low high v flags
  have sum : Alu.addSigned r.sp e = (v,flags) := Alu.addSigned_eq r.sp e
  have value := Alu.addSigned_value r.sp e
  rw [sum] at value
  refine ⟨value,effect_addSP clear waking sum,?_⟩
  intro here t
  have decoded : Instr.decode m.opcode = some .loadOffset := by rw [here]; rfl
  have effect := effect_loadOffset clear waking sum here
  rw [Registers.setHL,highByte_word,lowByte_word] at effect
  refine ⟨effect,fun there => ?_⟩
  have second := effect_loadSP (neutral_step clear waking decoded rfl) there
  have left : t.cpu.regs = {r with h := high.1, l := low.1, flags := flags, pc := past} := effect.regs
  have hl : t.cpu.regs.hl = v := by rw [left]; rfl
  have pc : t.cpu.regs.pc = past := by rw [left]
  rw [hl,pc] at second
  refine ⟨second,?_⟩
  intro τ _ n clear' waking' other sp byte
  have direct := effect_addSP clear' waking' (by rw [sp,byte,sum]) other
  rw [direct.regs,second.regs,left]
  exact ⟨rfl,rfl⟩

/-- SP is zero and every flag is set where the code stands. -/
def atBottom (code : List UInt8) : Machine FlatBus where
  cpu := {regs := {flags := ⟨true,true,true,true⟩, pc := 0x0040}}
  bus := {memory := Memory.zero.store 0x0040 code}

/-- One below zero is 0xFFFF, and yet neither H nor C is set, since 0xFF is added to a low byte of zero. -/
theorem offset_of_step_atBottom :
    let direct := atBottom [0xE8,0xFF]
    let first := atBottom [0xF8,0xFF,0xF9]
    let second := (step.run first).2
    (step.run direct).2.cpu.regs = {sp := 0xFFFF, pc := 0x0042} ∧
      (step.run first).2.cpu.regs = {h := 0xFF, l := 0xFF, pc := 0x0042} ∧
      (step.run second).2.cpu.regs = {h := 0xFF, l := 0xFF, sp := 0xFFFF, pc := 0x0043} ∧
      (step.run direct).2.cpu.regs.flags = (step.run second).2.cpu.regs.flags := by
  intro direct first second
  have code : direct.opcode = 0xE8 ∧ first.opcode = 0xF8 ∧ second.opcode = 0xF9 := by decide +kernel
  have byte : direct.underway.byte .immediate = 0xFF ∧ first.underway.byte .immediate = 0xFF := by
    decide +kernel
  obtain ⟨opDirect,opFirst,opSecond⟩ := code
  obtain ⟨byteDirect,byteFirst⟩ := byte
  obtain ⟨-,added,-⟩ := offset_of_step (m := direct) rfl nofun
  obtain ⟨-,-,loaded⟩ := offset_of_step (m := first) rfl nofun
  obtain ⟨kept,followed⟩ := loaded opFirst
  obtain ⟨moved,same⟩ := followed opSecond
  have sum := (added opDirect).regs
  have left := kept.regs
  have done := moved.regs
  rw [byteDirect] at sum
  rw [byteFirst] at left done
  have alike := same FlatBus direct rfl nofun opDirect rfl (byteDirect.trans byteFirst.symm)
  rw [left] at done
  exact ⟨sum.trans (by decide +kernel),left.trans (by decide +kernel),done.trans (by decide +kernel),
    alike.2⟩

end Exec
end Sm83
