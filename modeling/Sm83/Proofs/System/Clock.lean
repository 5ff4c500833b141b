import Sm83.Proofs.Cpu.Timing
import Sm83.Proofs.System.Dispatch
import Sm83.Proofs.System.Reload

/-!
The three counters of a running system: its clock, the processor's own and the timer's divider.
`beat_of_step` says what a step adds to the first two, `divider_step` what it makes of the third,
and `clock_of_run` how the three stand to each other in a run.
-/
namespace Sm83

namespace Timer

private theorem feed_divider (t : Timer) (x : Signal) : (t.feed x).divider = (t.stage x).divider := by
  by_cases write : x = .clock
  · subst write
    rw [feed,clock_eq,(advanceReload_divider _).1,counted_divider]
  · rw [feed_write t write,counted_divider]

private theorem clocks_divider (t : Timer) (n : Nat) :
    ((List.replicate n Signal.clock).foldl feed t).divider = t.divider + UInt16.ofNat n := by
  induction n generalizing t with
  | zero => exact (UInt16.add_zero _).symm
  | succ n ih =>
    rw [List.replicate_succ,List.foldl_cons,ih,feed_divider,stage,UInt16.ofNat_add,
      UInt16.add_assoc,UInt16.add_comm 1]
    rfl

private theorem writes_divider {t : Timer} {xs : List Signal} (writes : ∀ x ∈ xs, x ≠ .clock) :
    (xs.foldl feed t).divider = if .div ∈ xs then 0 else t.divider := by
  induction xs generalizing t with
  | nil => rfl
  | cons x xs ih =>
    obtain ⟨write,rest⟩ := List.forall_mem_cons.mp writes
    rw [List.foldl_cons,ih rest,feed_divider]
    cases x with
    | clock => exact absurd rfl write
    | div => simp [stage]
    | tima | tma | tac => simp [stage,writeTima,writeTma]

end Timer

private theorem Signal.ofAccess_eq_div_iff (x : Access) :
    ofAccess? x = some .div ↔ x.kind = .write ∧ x.addr = Address.div := by
  constructor
  · intro found
    unfold ofAccess? at found
    split at found
    case h_1 kind place => exact ⟨kind,place⟩
    all_goals cases found
  · rintro ⟨kind,place⟩
    rw [ofAccess?,kind,place]
    rfl

namespace System

/-- Asleep, with no interrupt to wake the processor. -/
def dormant (s : System) : Bool := s.cpu.halted && !s.bus.interrupts.any

def ClearsDivider (s : System) : Prop := ∃ x ∈ s.accesses, x.kind = .write ∧ x.addr = Address.div

instance : DecidablePred ClearsDivider := fun s =>
  inferInstanceAs (Decidable (∃ x ∈ s.accesses, x.kind = .write ∧ x.addr = Address.div))

/-- What a step of `n` clocks makes of the clock and of the processor's counters. -/
structure Beat (s : System) (n : Nat) (t : System) : Prop where
  clock : t.clock = s.clock + n
  total : t.cpu.total = s.cpu.total + t.cpu.cycles
  elapsed : n = if t.cpu.cycles = 0 then 4 else t.cpu.cycles
  idle : t.cpu.cycles = 0 ↔ s.dormant
  bounds : 4 ∣ n ∧ 4 ≤ n ∧ n ≤ 28

variable {s t : System} {n : Nat}

theorem any_of_accepted {line : Line} (accepted : s.accepted = some line) :
    s.bus.interrupts.any := by
  rw [System.accepted] at accepted
  split at accepted
  · rw [Interrupts.any_eq_isSome_highest,accepted]
    rfl
  · cases accepted

theorem step_of_run {m : Machine SystemBus} (refused : s.accepted = none)
    (run : Exec.step.run s.toMachine = (.ok n,m)) :
    s.step = (.ok (elapsed n),s.settle m (elapsed n)) := by
  have act := s.act_eq
  rw [refused] at act
  simp only [System.step,act,run]
  rfl

theorem beat_of_executed {i : Instr} (refused : s.accepted = none) (clear : s.cpu.fault = none)
    (awake : s.cpu.halted → s.bus.interrupts.any) (decoded : Instr.decode s.opcode = some i)
    (step : s.step = (.ok n,t)) : s.Beat n t := by
  obtain ⟨-,m,run,cycles,total⟩ := Exec.timing_of_step clear awake decoded
  have table := i.clocks_le s.cpu.regs.flags (s.underway.stream i.operandBytes)
  have parts := Instr.clocks_eq (Instr.isEncoded_of_decode decoded) s.cpu.regs
    (s.underway.stream i.operandBytes)
  have waking : (if s.cpu.halted then 4 else 0) = 4 ∨ (if s.cpu.halted then 4 else 0) = 0 := by
    split
    · exact .inl rfl
    · exact .inr rfl
  have spent : m.cpu.cycles ≠ 0 := by omega
  have lively : s.dormant = false := by
    cases halted : s.cpu.halted with
    | false => simp [dormant,halted]
    | true => simp [dormant,awake halted]
  rw [← cycles] at run total
  cases (step_of_run refused run).symm.trans step
  refine ⟨rfl,total,rfl,iff_of_false spent (by simp [lively]),?_⟩
  rw [elapsed,if_neg spent]
  exact ⟨by omega,by omega,by omega⟩

theorem beat_of_step (step : s.step = (.ok n,t)) : s.Beat n t := by
  cases turn_of_step step with
  | entered line accepted made =>
    have lively : s.dormant = false := by simp [dormant,any_of_accepted accepted]
    exact ⟨rfl,rfl,rfl,by simp [lively,settle,enter,Machine.inHandler],by decide⟩
  | passed refused course made =>
    cases course with
    | asleep clear halted quiet none =>
      have still : s.bus.interrupts.any = false := quiet
      exact ⟨rfl,rfl,rfl,iff_of_true rfl (by simp [dormant,halted,still]),by decide⟩
    | executed i clear awake legal fetched => exact beat_of_executed refused clear awake legal step

theorem clock_step (s : System) : s.step.2.clock = s.clock + s.ticks := by
  obtain ⟨result,t,step,turn⟩ := s.exists_turn
  rw [ticks,step]
  cases turn with
  | entered | failed | passed => rfl

private theorem div_mem_iff (s : System) :
    Signal.div ∈ s.accesses.filterMap Signal.ofAccess? ↔ s.ClearsDivider := by
  simp only [List.mem_filterMap,ClearsDivider,Signal.ofAccess_eq_div_iff]

theorem divider_step (s : System) : s.step.2.bus.timer.divider =
    (if s.ClearsDivider then 0 else s.bus.timer.divider) + UInt16.ofNat s.ticks := by
  rw [step_timer,signals,List.foldl_append,Timer.clocks_divider,
    Timer.writes_divider s.signals_writes]
  simp only [div_mem_iff]

theorem clock_perform {move : Move} (other : move ≠ .step) : (s.perform move).clock = s.clock := by
  cases move with
  | step => exact absurd rfl other
  | _ => rfl

private theorem divider_perform {move : Move} (other : move ≠ .step)
    (apart : ∀ v, move ≠ .write Address.div v) :
    (s.perform move).bus.timer.divider = s.bus.timer.divider := by
  cases move with
  | step => exact absurd rfl other
  | load | request | acknowledge => rfl
  | write a v =>
    change (Bus.follow s.bus ⟨a,v,.write⟩).timer.divider = _
    rw [follow_timer]
    cases found : Signal.ofAccess? ⟨a,v,.write⟩ with
    | none => rfl
    | some x =>
      change (s.bus.timer.feed x).divider = _
      rw [Timer.feed_divider]
      cases x with
      | div =>
        obtain ⟨-,rfl⟩ := (Signal.ofAccess_eq_div_iff _).mp found
        exact absurd rfl (apart v)
      | clock => exact absurd rfl (ne_clock_of_ofAccess found)
      | tima | tma | tac => rfl

@[elab_as_elim]
theorem run_induction {motive : System → List Move → Prop} (nil : ∀ s, motive s [])
    (step : ∀ s moves, motive s.step.2 moves → motive s (.step :: moves))
    (host : ∀ s move moves, move ≠ .step → motive (s.perform move) moves → motive s (move :: moves))
    (s : System) (moves : List Move) : motive s moves := by
  induction moves generalizing s with
  | nil => exact nil s
  | cons move moves ih =>
    by_cases stepped : move = .step
    · subst stepped
      exact step s moves (ih s.step.2)
    · exact host s move moves stepped (ih (s.perform move))

variable {moves : List Move}

def Untouched (moves : List Move) : Prop := ∀ v, .write Address.div v ∉ moves

private theorem untouched_cons {move : Move} (untouched : Untouched (move :: moves)) :
    (∀ v, move ≠ .write Address.div v) ∧ Untouched moves :=
  ⟨fun v same => untouched v (same ▸ List.mem_cons_self),
    fun v later => untouched v (List.mem_cons_of_mem _ later)⟩

theorem divider_of_trail (untouched : Untouched moves) (calm : ∀ u ∈ s.trail moves, ¬u.ClearsDivider) :
    ∃ k, (s.performAll moves).clock = s.clock + k ∧
      (s.performAll moves).bus.timer.divider = s.bus.timer.divider + UInt16.ofNat k := by
  induction s, moves using run_induction with
  | nil s => exact ⟨0,rfl,(UInt16.add_zero _).symm⟩
  | step s moves ih =>
    obtain ⟨first,later⟩ := List.forall_mem_cons.mp calm
    obtain ⟨k,clock,divider⟩ := ih (untouched_cons untouched).2 later
    refine ⟨s.ticks + k,?_,?_⟩
    · rw [← Nat.add_assoc,← clock_step]
      exact clock
    · rw [UInt16.ofNat_add,← UInt16.add_assoc]
      rw [divider_step,if_neg first] at divider
      exact divider
  | host s move moves other ih =>
    obtain ⟨apart,rest⟩ := untouched_cons untouched
    rw [trail_cons other] at calm
    obtain ⟨k,reached⟩ := ih rest calm
    rw [clock_perform other,divider_perform other apart] at reached
    exact ⟨k,reached⟩

private theorem aligned_of_trail (untouched : Untouched moves)
    (taken : ∀ u ∈ s.trail moves, u.step.1.isOk) (aligned : s.bus.timer.divider.toNat % 4 = 0) :
    (s.performAll moves).bus.timer.divider.toNat % 4 = 0 := by
  induction s, moves using run_induction with
  | nil s => exact aligned
  | step s moves ih =>
    obtain ⟨first,later⟩ := List.forall_mem_cons.mp taken
    obtain ⟨k,clocks⟩ := exists_ticks first
    apply ih (untouched_cons untouched).2 later
    rw [divider_step,clocks,UInt16.toNat_add,UInt16.toNat_ofNat']
    split
    · simp
    · simp
      omega
  | host s move moves other ih =>
    obtain ⟨apart,rest⟩ := untouched_cons untouched
    rw [trail_cons other] at taken
    apply ih rest taken
    rw [divider_perform other apart]
    exact aligned

private theorem exists_moves_of_trail {u : System} {before after : List System}
    (found : s.trail moves = before ++ u :: after) : ∃ first rest,
      moves = first ++ .step :: rest ∧ s.performAll first = u ∧ u.step.2.trail rest = after := by
  induction s, moves using run_induction generalizing before with
  | nil s => simp [trail] at found
  | step s moves ih =>
    cases before with
    | nil =>
      obtain ⟨rfl,rfl⟩ := List.cons.inj found
      exact ⟨[],moves,rfl,rfl,rfl⟩
    | cons v before =>
      obtain ⟨first,rest,rfl,reached,later⟩ := ih (List.cons.inj found).2
      exact ⟨.step :: first,rest,rfl,reached,later⟩
  | host s move moves other ih =>
    rw [trail_cons other] at found
    obtain ⟨first,rest,rfl,reached,later⟩ := ih found
    exact ⟨move :: first,rest,rfl,reached,later⟩

theorem exists_beat (taken : s.step.1.isOk) : ∃ n, s.step.1 = .ok n ∧ s.Beat n s.step.2 := by
  cases step : s.step with
  | mk result t =>
    rw [step] at taken
    cases result with
    | error f => cases taken
    | ok n => exact ⟨n,rfl,beat_of_step step⟩

theorem clock_of_trail (taken : ∀ u ∈ s.trail moves, u.step.1.isOk) :
    (s.performAll moves).clock + s.cpu.total =
      s.clock + (s.performAll moves).cpu.total + 4 * (s.trail moves).countP dormant := by
  induction s, moves using run_induction with
  | nil s => rfl
  | step s moves ih =>
    obtain ⟨first,later⟩ := List.forall_mem_cons.mp taken
    obtain ⟨n,-,beat⟩ := exists_beat first
    have reached := ih later
    have elapsed := beat.elapsed
    rw [beat.clock,beat.total] at reached
    change (s.step.2.performAll moves).clock + s.cpu.total =
      s.clock + (s.step.2.performAll moves).cpu.total + 4 * (s :: s.step.2.trail moves).countP dormant
    rw [List.countP_cons]
    by_cases idle : s.dormant
    · have rested := beat.idle.mpr idle
      rw [if_pos rested] at elapsed
      rw [rested] at reached
      rw [if_pos idle]
      omega
    · have busy : s.step.2.cpu.cycles ≠ 0 := fun none => idle (beat.idle.mp none)
      rw [if_neg busy] at elapsed
      rw [if_neg idle]
      omega
  | host s move moves other ih =>
    rw [trail_cons other] at taken ⊢
    have reached := ih taken
    rw [cpu_perform other,clock_perform other] at reached
    exact reached

/-- A system that is switched on, as its boot program finds it or leaves it. -/
def switchedOn (skip : Bool) : System := {powerOn with cpu := if skip then .postBoot else .powerOn}

/-- The counters of a system that takes its steps without a fault, while no host writes to DIV. The
clock is ahead of the processor by four clocks for each step in which it is dormant; a step takes
one to seven machine cycles; and the divider tells the time since the start of the latest step that
writes to DIV, or since the system was switched on. -/
theorem clock_of_run (skip : Bool) (moves : List Move) (untouched : Untouched moves)
    (taken : ∀ u ∈ (switchedOn skip).trail moves, u.step.1.isOk) :
    let steps := (switchedOn skip).trail moves
    let t := (switchedOn skip).performAll moves
    t.clock = t.cpu.total + 4 * steps.countP dormant ∧
    (∀ u ∈ steps, ∃ n, u.step.1 = .ok n ∧ u.Beat n u.step.2) ∧
    (∀ before u after, steps = before ++ u :: after → u.ClearsDivider →
      (∀ v ∈ after, ¬v.ClearsDivider) →
        u.clock ≤ t.clock ∧ t.bus.timer.divider = UInt16.ofNat (t.clock - u.clock)) ∧
    ((∀ u ∈ steps, ¬u.ClearsDivider) → t.bus.timer.divider = UInt16.ofNat t.clock) ∧
    t.bus.timer.divider.toNat % 4 = 0 := by
  intro steps t
  have fresh : (switchedOn skip).cpu.total = 0 := by cases skip <;> rfl
  have begun : (switchedOn skip).clock = 0 := rfl
  refine ⟨?_,fun u member => exists_beat (taken u member),?_,?_,aligned_of_trail untouched taken rfl⟩
  · have clock := clock_of_trail taken
    rw [fresh,begun,Nat.zero_add] at clock
    exact clock
  · intro before u after found clears calm
    obtain ⟨first,rest,rfl,reached,rfl⟩ := exists_moves_of_trail found
    have untouched' : Untouched rest := fun v later => untouched v (by simp [later])
    have ends : t = u.step.2.performAll rest := by
      simp only [t,performAll,List.foldl_append,List.foldl_cons] at reached ⊢
      rw [reached]
      rfl
    obtain ⟨k,clock,divider⟩ := divider_of_trail untouched' calm
    rw [← ends,clock_step] at clock
    rw [← ends,divider_step,if_pos clears,UInt16.zero_add,← UInt16.ofNat_add] at divider
    refine ⟨by omega,?_⟩
    rw [divider]
    congr 1
    omega
  · intro calm
    obtain ⟨k,clock,divider⟩ := divider_of_trail untouched calm
    have zero : (switchedOn skip).bus.timer.divider = 0 := rfl
    rw [begun,Nat.zero_add] at clock
    rw [zero,UInt16.zero_add] at divider
    rw [clock]
    exact divider

/-- A program that writes to DIV and goes to sleep, and is woken by an interrupt after a while. -/
def restarting : List Move :=
  [.load 0 [0x31,0x00,0x01,0xE0,0x04,0xFB,0x76],.write Address.interruptEnable 1,.step,.step,.step,.step,
    .step,.request 1,.step]

theorem clock_of_run_restarting :
    let t := (switchedOn false).performAll restarting
    t.cpu.regs.pc = 0x40 ∧ t.clock = t.cpu.total + 4 ∧ t.bus.timer.divider = 44 := by
  intro t
  have untouched : Untouched restarting := by
    have apart : Address.div ≠ Address.interruptEnable := by decide
    intro v
    simp [restarting,apart]
  have taken : ∀ u ∈ (switchedOn false).trail restarting, u.step.1.isOk := by decide +kernel
  obtain ⟨clock,-,since,-⟩ := clock_of_run false restarting untouched taken
  have once : ((switchedOn false).trail restarting).countP dormant = 1 := by decide +kernel
  rw [once] at clock
  -- DIV is written in the second step, and four steps follow.
  let u := (switchedOn false).performAll (restarting.take 3)
  have later : ∀ v ∈ u.step.2.trail (restarting.drop 4), ¬v.ClearsDivider := by decide +kernel
  obtain ⟨-,divider⟩ := since [_] u _ rfl (by decide +kernel) later
  refine ⟨by decide +kernel,clock,divider.trans ?_⟩
  decide +kernel

end System
end Sm83
