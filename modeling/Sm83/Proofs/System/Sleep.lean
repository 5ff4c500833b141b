import Sm83.Proofs.Cpu.Switches
import Sm83.Proofs.Cpu.Waking
import Sm83.Proofs.Interrupts
import Sm83.Proofs.System.Clock
import Sm83.Proofs.Timer.Counting

/-!
A processor that sleeps until the timer wakes it. The peripherals alone go on (`step_after`), until
the reload that follows the first overflow of TIMA. Main statement: `woken_by_timer`.
-/
namespace Sm83

namespace Interrupts
variable {e f : UInt8}

private theorem isIn_timerInterrupt (line : Line) : line.isIn timerInterrupt = (line == 2) := by
  revert line
  decide

private theorem highest_of_timer (quiet : e &&& f &&& 0x1F = 0) (listens : e &&& timerInterrupt ≠ 0) :
    (ofByte (e &&& (f ||| timerInterrupt))).highest = some 2 ∧ f &&& timerInterrupt = 0 := by
  have on : Line.isIn 2 e := (isIn_iff 2).mpr listens
  have off (line : Line) : (line.isIn e && line.isIn f) = false := by
    rw [← Line.isIn_and,← Line.isIn_known,quiet]
    exact Nat.zero_testBit _
  constructor
  · simp only [highest_eq_some_iff,waits_ofByte,Line.isIn_and,Line.isIn_or,isIn_timerInterrupt,
      Bool.and_or_distrib_left,off,Bool.false_or]
    refine ⟨by simp [on],fun line lower => ?_⟩
    rw [beq_false_of_ne (Fin.ne_of_lt lower),Bool.and_false]
  · by_contra set
    have both := off 2
    rw [on,(isIn_iff 2).mpr set] at both
    cases both

end Interrupts

namespace SystemBus

private theorem tick_tick (b : SystemBus) (m n : Nat) : (b.tick m).tick n = b.tick (m + n) := by
  have once (f : UInt8) : f ||| timerInterrupt ||| timerInterrupt = f ||| timerInterrupt := by
    rw [UInt8.or_assoc,UInt8.or_self]
  simp only [tick_eq,Timer.tick_add]
  cases (b.timer.tick m).2 <;> cases ((b.timer.tick m).1.tick n).2 <;> simp [once]

private theorem tick_ahead {b : SystemBus} (idle : b.timer.reload = none) (on : b.timer.enabled) (n : Nat) :
    b.tick n = { b with
      timer := b.timer.ahead n
      interruptFlags :=
        if b.timer.reloaded n then b.interruptFlags ||| timerInterrupt else b.interruptFlags } := by
  rw [tick_eq,Timer.tick_eq_ahead idle on]

end SystemBus

namespace System

def rested (s : System) (k : Nat) : System := ⟨⟨{s.cpu with cycles := 0},s.bus.tick k⟩,s.clock + k⟩

def later (s : System) (k : Nat) : System := ⟨⟨s.cpu.later k,s.bus.tick k⟩,s.clock + k⟩

/-- Halted, with no fault and past the instruction after `EI`. -/
structure Parked (s : System) : Prop where
  clear : s.cpu.fault = none
  halted : s.cpu.halted
  closed : s.cpu.eiDelay = false

/-- Parked with no interrupt waiting, while the timer counts and its interrupt is enabled. -/
structure AwaitsTimer (s : System) : Prop extends s.Parked where
  quiet : s.bus.interruptEnable &&& s.bus.interruptFlags &&& 0x1F = 0
  listens : s.bus.interruptEnable &&& timerInterrupt ≠ 0
  on : s.bus.timer.enabled
  idle : s.bus.timer.reload = none
  aligned : 4 ∣ s.bus.timer.divider.toNat

variable {s : System} {i : Instr}

private theorem rested_rested (s : System) (m n : Nat) : (s.rested m).rested n = s.rested (m + n) := by
  simp only [rested,SystemBus.tick_tick,Nat.add_assoc]

theorem Parked.rested (parked : s.Parked) (n : Nat) : (s.rested n).Parked :=
  ⟨parked.clear,parked.halted,parked.closed⟩

theorem Parked.step (parked : s.Parked) (still : s.bus.interrupts.any = false) :
    s.step = (.ok 4,s.rested 4) := by
  have refused : s.accepted = none := by
    cases accepted : s.accepted with
    | none => rfl
    | some line => cases still.symm.trans (any_of_accepted accepted)
  have asleep : {s.cpu with cycles := 0, eiDelay := false} = {s.cpu with cycles := 0} := by
    rw [← parked.closed]
  rw [step_of_run refused (Exec.run_step_asleep parked.clear parked.halted still),asleep]
  rfl

theorem Parked.step_after {k : Nat} (parked : s.Parked)
    (still : ∀ j < k, (s.bus.tick (4 * j)).interrupts.any = false) :
    ∀ j < k, (s.after j).step = (.ok 4,s.rested (4 * (j + 1))) := by
  intro j early
  induction j with
  | zero =>
    have first := still 0 early
    rw [Nat.mul_zero,tick_zero] at first
    exact parked.step first
  | succ j ih =>
    rw [after_succ,ih (Nat.lt_of_succ_lt early)]
    change (s.rested (4 * (j + 1))).step = _
    rw [(parked.rested _).step (still _ early),rested_rested]
    rfl

theorem Parked.bus_after {k : Nat} (parked : s.Parked)
    (still : ∀ j < k, (s.bus.tick (4 * j)).interrupts.any = false) {j : Nat} (upto : j ≤ k) :
    (s.after j).bus = s.bus.tick (4 * j) := by
  cases j with
  | zero => exact (tick_zero s.bus).symm
  | succ j => rw [after_succ,parked.step_after still j upto]; rfl

private theorem accepted_of_off (off : s.cpu.ime = false) : s.accepted = none := by
  simp [accepted,Cpu.acceptsInterrupts,off]

private theorem elapsed_of_ne {n : Nat} (busy : n ≠ 0) : elapsed n = n := if_neg busy

/-- With interrupts off, none but `STOP` sends the processor to sleep while one waits. -/
private theorem halted_of_executed (off : s.cpu.ime = false) (waits : s.bus.interrupts.any) (i : Instr) :
    ((Exec.execute i).run s.underway).2.cpu.halted ↔ i = .stop := by
  obtain ⟨regs,k,moved⟩ := Exec.run_execute i s.underway
  have awake : s.underway.cpu.halted = false :=
    s.cpu.roused.fetched_halted.trans s.cpu.roused_halted
  have closed : s.underway.cpu.ime = false := s.cpu.fetched_roused.1.trans off
  have waiting : (Bus.interrupts s.underway.bus).any := waits
  rw [moved,waiting]
  cases i with
  | halt => simp [Instr.switch,Cpu.moved,awake,closed]
  | stop => exact iff_of_true rfl rfl
  | _ =>
    refine iff_of_false (by simp [Instr.switch,Cpu.moved,awake]) fun same => ?_
    cases same

theorem step_woken (off : s.cpu.ime = false) (clear : s.cpu.fault = none) (halted : s.cpu.halted)
    (waits : s.bus.interrupts.any) (decoded : Instr.decode s.opcode = some i) :
    let awake : System := {s with cpu := s.cpu.wake}
    let n := i.clocks s.cpu.regs.flags (awake.underway.stream i.operandBytes)
    awake.step.1 = .ok n ∧ s.step = (.ok (n + 4),awake.step.2.later 4) ∧
      (s.step.2.cpu.halted ↔ i = .stop) := by
  intro awake n
  have awakens : Exec.step.run s.toMachine.awake = (.ok n,((Exec.execute i).run awake.underway).2) :=
    Exec.run_step_executed (m := awake.toMachine) clear rfl decoded
  have woken := Exec.run_step_woken (m := s.toMachine) clear halted waits
  rw [awakens] at woken
  have busy : n ≠ 0 := by
    have parts : n = _ := Instr.clocks_eq (Instr.isEncoded_of_decode decoded) s.cpu.regs _
    omega
  have taken := step_of_run (s := awake) (accepted_of_off off) awakens
  have taken' := step_of_run (accepted_of_off off) woken
  rw [elapsed_of_ne busy] at taken
  rw [elapsed_of_ne (Nat.succ_ne_zero _)] at taken'
  rw [taken',taken]
  refine ⟨rfl,?_,halted_of_executed (s := awake) off waits i⟩
  simp only [settle,later,SystemBus.tick_tick,Nat.add_assoc]
  rfl

namespace AwaitsTimer

theorem still (awaits : s.AwaitsTimer) {n : Nat} (early : n ≤ s.bus.timer.countdown) :
    (s.bus.tick n).interrupts.any = false ∧ (s.bus.tick n).interruptFlags = s.bus.interruptFlags := by
  have idle : ¬s.bus.timer.reloaded n := by
    rw [Timer.reloaded_iff]
    omega
  rw [SystemBus.tick_ahead awaits.idle awaits.on,if_neg idle]
  refine ⟨?_,rfl⟩
  change (s.bus.interruptEnable &&& s.bus.interruptFlags &&& 0x1F &&& 0x1F != 0) = false
  rw [awaits.quiet]
  rfl

theorem due (awaits : s.AwaitsTimer) :
    let b := s.bus.tick (s.bus.timer.countdown + 4)
    b.timer.tima = s.bus.timer.tma ∧ b.interruptFlags = s.bus.interruptFlags ||| timerInterrupt ∧
      b.interrupts.highest = some 2 := by
  have loaded : s.bus.timer.reloaded (s.bus.timer.countdown + 4) := by
    rw [Timer.reloaded_iff]
    omega
  rw [SystemBus.tick_ahead awaits.idle awaits.on,if_pos loaded]
  exact ⟨s.bus.timer.tima_after_countdown,rfl,(Interrupts.highest_of_timer awaits.quiet awaits.listens).1⟩

end AwaitsTimer

/-- A sleeper that waits for the timer sleeps until a machine cycle after the first overflow of TIMA,
when TIMA has been loaded from TMA and the timer's interrupt is requested, and not before. The next
step enters the handler of the timer; or, with interrupts off, it executes the instruction at PC, in
four clocks more than it takes awake. -/
theorem woken_by_timer (awaits : s.AwaitsTimer) :
    let t := s.bus.timer
    let wait := Timer.period t.rate * (256 - t.tima.toNat) - t.divider.toNat % Timer.period t.rate
    let k := wait / 4 + 1
    let u := s.after k
    (∀ j < k, (s.after j).step = (.ok 4,s.rested (4 * (j + 1)))) ∧
    (∀ j ≤ k, (s.after j).bus.interruptFlags &&& timerInterrupt ≠ 0 ↔ j = k) ∧
    u.bus.timer.tima = t.tma ∧
    (s.cpu.ime → ∃ v, u.Enters 2 v ∧ v.cpu.regs.pc = 0x50) ∧
    (s.cpu.ime = false → ∀ i, Instr.decode u.opcode = some i →
      let awake : System := {u with cpu := u.cpu.wake}
      let n := i.clocks u.cpu.regs.flags (awake.underway.stream i.operandBytes)
      awake.step.1 = .ok n ∧ u.step = (.ok (n + 4),awake.step.2.later 4) ∧
        (u.step.2.cpu.halted ↔ i = .stop)) := by
  intro t wait k u
  have whole : 4 ∣ wait := Timer.countdown_aligned awaits.aligned
  have early {j : Nat} (before : j < k) : 4 * j ≤ s.bus.timer.countdown := by
    change 4 * j ≤ wait
    omega
  have still : ∀ j < k, (s.bus.tick (4 * j)).interrupts.any = false := fun j before =>
    (awaits.still (early before)).1
  have steps := awaits.step_after still
  have last : 4 * k = wait + 4 := by omega
  have woken : u = s.rested (wait + 4) := by
    rw [← last]
    exact (s.after_succ _).trans (congrArg Prod.snd (steps (wait / 4) (Nat.lt_succ_self _)))
  obtain ⟨tima,flags,highest⟩ := awaits.due
  change (s.bus.tick (wait + 4)).interruptFlags = _ at flags
  refine ⟨steps,fun j upto => ?_,?_,?_,?_⟩
  · rw [awaits.bus_after still upto]
    by_cases now : j = k
    · have set : (s.bus.interruptFlags ||| timerInterrupt) &&& timerInterrupt = timerInterrupt :=
        or_four_and_four _
      rw [now,last,flags,set]
      exact iff_of_true (by decide) rfl
    · rw [(awaits.still (early (Nat.lt_of_le_of_ne upto now))).2]
      exact iff_of_false (not_not_intro (Interrupts.highest_of_timer awaits.quiet awaits.listens).2) now
  · rw [woken]
    exact tima
  · intro on
    have accepts : u.cpu.acceptsInterrupts := by
      rw [woken]
      simp [rested,Cpu.acceptsInterrupts,on,awaits.closed]
    have accepted : u.accepted = some 2 := by
      rw [System.accepted,if_pos accepts,woken]
      exact highest
    exact ⟨_,enters_of_accepted accepted,rfl⟩
  · intro off i decoded
    have waits : u.bus.interrupts.any := by
      rw [Interrupts.any_eq_isSome_highest,woken]
      exact congrArg Option.isSome highest
    have parked : u.Parked := woken ▸ awaits.toParked.rested _
    exact step_woken (by rw [woken]; exact off) parked.clear parked.halted waits decoded

/-- Asleep before `INC A`, two counts before an overflow of TIMA. -/
def napping (ime : Bool) : System where
  cpu := {regs := {pc := 0x0010}, ime := ime, halted := true}
  bus :=
    { memory := Memory.zero.write 0x0010 0x3C
      timer := {divider := 4, tima := 0xFE, tma := 0x42, enabled := true, rate := twoBits 1}
      interruptEnable := 0x15
      interruptFlags := 0x0A }

theorem woken_by_timer_napping : (∀ ime, (napping ime).AwaitsTimer) ∧
    ((napping false).after 8).bus.timer.tima = 0x42 ∧
    ((napping false).after 7).bus.interruptFlags &&& timerInterrupt = 0 ∧
    (∃ t, ((napping false).after 8).step = (.ok 8,t) ∧ t.cpu.halted = false) ∧
    ∃ v, ((napping true).after 8).Enters 2 v := by
  have awaits (ime : Bool) : (napping ime).AwaitsTimer := by
    cases ime <;> exact ⟨⟨rfl,rfl,rfl⟩,by decide,by decide,rfl,rfl,by decide⟩
  obtain ⟨-,flags,tima,-,woken⟩ := woken_by_timer (awaits false)
  obtain ⟨-,-,-,enters,-⟩ := woken_by_timer (awaits true)
  obtain ⟨v,entered,-⟩ := enters rfl
  have decoded : Instr.decode ((napping false).after 8).opcode = some (.inc (.reg .a)) := by
    decide +kernel
  obtain ⟨-,step,halted⟩ := woken rfl _ decoded
  refine ⟨awaits,tima,?_,⟨_,step,?_⟩,v,entered⟩
  · exact Classical.not_not.mp fun set => by cases (flags 7 (by decide)).mp set
  · have up := congrArg (fun w => w.2.cpu.halted) step
    exact up.symm.trans (Bool.eq_false_iff.mpr fun set => by cases halted.mp set)

end System
end Sm83
