import Sm83.Proofs.System.Serial

/-!
The registers as a program sees them: what a write leaves to be read, at its own address and at all
others. Main statement: `read_after_write`.
-/
namespace Sm83

namespace Timer
variable {t : Timer}

/-- The input of TIMA that a value of TAC selects: a bit of the divider, or none. -/
def selects (tac : UInt8) (divider : UInt16) : Bool :=
  tac.toNat.testBit 2 && divider.toNat.testBit (selectedBit (twoBits tac.toNat))

private theorem input_eq (t : Timer) : t.input = selects t.tac t.divider := by
  have all : ∀ (on : Bool) (rate : Fin 4), let v := 0xF8 + (if on then 4 else 0) + UInt8.ofNat rate.val
      v.toNat.testBit 2 = on ∧ twoBits v.toNat = rate := by
    decide
  obtain ⟨on,rate⟩ := all t.enabled t.rate
  rw [input,selects,tac,on,rate]

private theorem countFall_setting (before : Bool) (t : Timer) : (countFall before t).div = t.div ∧
    (countFall before t).tma = t.tma ∧ (countFall before t).tac = t.tac ∧
    (countFall before t).divider = t.divider ∧ (countFall before t).input = t.input := by
  unfold countFall increment
  split
  · split <;> exact ⟨rfl,rfl,rfl,rfl,rfl⟩
  · exact ⟨rfl,rfl,rfl,rfl,rfl⟩

private theorem increment_tima (t : Timer) : t.increment.tima = t.tima + 1 := by
  unfold increment
  split
  · rename_i full
    rw [full]
    rfl
  · rfl

private theorem countFall_tima (before : Bool) (t : Timer) : (countFall before t).tima =
    if before && !(countFall before t).input then t.tima + 1 else t.tima := by
  rw [(t.countFall_setting before).2.2.2.2]
  unfold countFall
  split
  · exact t.increment_tima
  · rfl

private theorem div_writeDiv (t : Timer) : t.writeDiv.div = 0 := by
  rw [writeDiv,(countFall_setting _ _).1]
  change ((0 : UInt16) / 256).toUInt8 = 0
  decide

private theorem tac_writeTac (t : Timer) (v : UInt8) : (t.writeTac v).tac = 0xF8 ||| v &&& 7 := by
  have all : ∀ w : UInt8,
      0xF8 + (if w &&& 4 != 0 then 4 else 0) + UInt8.ofNat (twoBits w.toNat).val = 0xF8 ||| w &&& 7 := by
    decide +kernel
  exact (countFall_setting _ _).2.2.1.trans (all v)

end Timer

namespace SystemBus
variable {b c : SystemBus}

/-- What the address reads to which `v` has just been written. -/
def kept (v : UInt8) : UInt16 → UInt8
  | Address.serialControl => if v.toNat.testBit 7 && v.toNat.testBit 0 then v &&& 0x7F else v
  | Address.div => 0
  | Address.tac => 0xF8 ||| v &&& 7
  | Address.interruptFlags => 0xE0 ||| v &&& 0x1F
  | Address.displayLine => 0x90
  | _ => v

theorem read_frame {r : UInt16} (memory : c.memory.read r = b.memory.read r)
    (div : r = Address.div → c.timer.div = b.timer.div)
    (tima : r = Address.tima → c.timer.tima = b.timer.tima)
    (tma : r = Address.tma → c.timer.tma = b.timer.tma)
    (tac : r = Address.tac → c.timer.tac = b.timer.tac)
    (flags : r = Address.interruptFlags → c.interruptFlags = b.interruptFlags)
    (enable : r = Address.interruptEnable → c.interruptEnable = b.interruptEnable) :
    c.read r = b.read r := by
  unfold read
  split
  · exact div rfl
  · exact tima rfl
  · exact tma rfl
  · exact tac rfl
  · exact congrArg (0xE0 ||| ·) (flags rfl)
  · rfl
  · exact enable rfl
  · exact memory

theorem read_kept (b : SystemBus) (a : UInt16) (v : UInt8) : (b.write a v).read a = kept v a := by
  unfold write
  split
  case h_1 =>
    rw [kept,← startsTransfer_eq,writeSerialControl]
    split <;> exact (Memory.read_write _ _ _ _).trans (if_pos rfl)
  case h_2 => exact b.timer.div_writeDiv
  case h_5 => exact b.timer.tac_writeTac v
  case h_8 sc div tima tma tac flags enable =>
    unfold read
    split
    case h_6 => rfl
    case h_8 line _ =>
      rw [kept]
      · exact (Memory.read_write _ _ _ _).trans (if_pos rfl)
      all_goals assumption
    all_goals contradiction
  all_goals rfl

theorem read_apart (b : SystemBus) {a r : UInt16} (v : UInt8) (apart : r ≠ a)
    (request : r = Address.interruptFlags → ¬(a = Address.serialControl ∧ startsTransfer v))
    (count : r = Address.tima → a ≠ Address.div ∧ a ≠ Address.tac) :
    (b.write a v).read r = b.read r := by
  have elsewhere (m : Memory) (w : UInt8) : (m.write a w).read r = m.read r :=
    (m.read_write a r w).trans (if_neg apart)
  unfold write
  split
  case h_1 =>
    rw [writeSerialControl]
    split
    · rename_i starts
      exact read_frame (elsewhere _ _) (fun _ => rfl) (fun _ => rfl) (fun _ => rfl) (fun _ => rfl)
        (fun same => absurd ⟨rfl,starts⟩ (request same)) fun _ => rfl
    · exact read_frame (elsewhere _ _) (fun _ => rfl) (fun _ => rfl) (fun _ => rfl) (fun _ => rfl)
        (fun _ => rfl) fun _ => rfl
  case h_2 =>
    obtain ⟨-,tma,tac,-⟩ := Timer.countFall_setting b.timer.input {b.timer with divider := 0}
    exact read_frame rfl (fun same => absurd same apart) (fun same => absurd rfl (count same).1)
      (fun _ => tma) (fun _ => tac) (fun _ => rfl) fun _ => rfl
  case h_5 =>
    obtain ⟨div,tma,-⟩ := Timer.countFall_setting b.timer.input
      {b.timer with enabled := v &&& 4 != 0, rate := twoBits v.toNat}
    exact read_frame rfl (fun _ => div) (fun same => absurd rfl (count same).2) (fun _ => tma)
      (fun same => absurd same apart) (fun _ => rfl) fun _ => rfl
  all_goals
    apply read_frame
    all_goals first | exact elsewhere _ _ | exact fun _ => rfl | exact fun same => absurd same apart | rfl

private theorem divider_write (b : SystemBus) (a : UInt16) (v : UInt8) :
    (b.write a v).timer.divider = if a = Address.div then 0 else b.timer.divider := by
  unfold write
  split
  case h_1 =>
    unfold writeSerialControl
    split <;> rfl
  case h_2 | h_5 => exact (Timer.countFall_setting _ _).2.2.2.1
  case h_8 div _ _ _ _ _ => exact (if_neg div).symm
  all_goals rfl

/-- What a write leaves to be read, at its own address and at all others. It bears on another address
in two cases only: a transfer over the serial line requests its interrupt, and the timer counts if the
input that TAC selects from the divider falls. -/
theorem read_after_write (b : SystemBus) (a : UInt16) (v : UInt8) :
    let c := b.write a v
    let starts := a = Address.serialControl ∧ v.toNat.testBit 7 ∧ v.toNat.testBit 0
    let clocks := a = Address.div ∨ a = Address.tac
    let falls := Timer.selects (b.read Address.tac) b.timer.divider &&
      !Timer.selects (c.read Address.tac) c.timer.divider
    c.read a = kept v a ∧
    (∀ r ≠ a, ¬(starts ∧ r = Address.interruptFlags) → ¬(clocks ∧ r = Address.tima) →
      c.read r = b.read r) ∧
    (starts → c.read Address.interruptFlags = b.read Address.interruptFlags ||| 8) ∧
    (clocks → c.read Address.tima =
      if falls then b.read Address.tima + 1 else b.read Address.tima) ∧
    c.timer.divider = if a = Address.div then 0 else b.timer.divider := by
  intro c starts clocks falls
  have falls_eq : falls = (b.timer.input && !c.timer.input) := by
    rw [b.timer.input_eq,c.timer.input_eq]
    rfl
  refine ⟨b.read_kept a v,?_,?_,?_,b.divider_write a v⟩
  · intro r apart request count
    refine b.read_apart v apart ?_ ?_
    · rintro same ⟨control,bits⟩
      rw [startsTransfer_eq,Bool.and_eq_true] at bits
      exact request ⟨⟨control,bits⟩,same⟩
    · exact fun same => not_or.mp fun hit => count ⟨hit,same⟩
  · rintro ⟨rfl,bits⟩
    have starting : startsTransfer v := by rw [startsTransfer_eq,Bool.and_eq_true]; exact bits
    change (b.write Address.serialControl v).read _ = _
    rw [b.write_starting starting]
    exact (UInt8.or_assoc 0xE0 b.interruptFlags 8).symm
  · rw [falls_eq]
    rintro (rfl | rfl) <;> exact Timer.countFall_tima _ _

/-- The timer's input is high, and TIMA about to overflow. -/
def brimful : SystemBus where
  timer := {divider := 0x1208, tima := 0xFF, tma := 0x42, enabled := true, rate := twoBits 1}
  interruptFlags := 0x01

theorem read_after_write_brimful :
    let off := brimful.write Address.tac 0
    let sent := brimful.write Address.serialControl 0x81
    Address.div ≠ Address.tac ∧ off.read Address.tac = 0xF8 ∧ off.read Address.tima = 0 ∧
      off.read Address.div = 0x12 ∧ sent.read Address.serialControl = 0x01 ∧
      sent.read Address.interruptFlags = 0xE9 ∧ sent.read Address.tima = 0xFF := by
  intro off sent
  obtain ⟨tac,others,-,tima,-⟩ := read_after_write brimful Address.tac 0
  obtain ⟨control,others',request,-,-⟩ := read_after_write brimful Address.serialControl 0x81
  have apart : Address.div ≠ Address.tac := by decide
  exact ⟨apart,tac,tima (.inr rfl),others _ apart (by decide) (by decide),control,
    request (by decide),others' _ (by decide) (by decide) (by decide)⟩

end SystemBus
end Sm83
