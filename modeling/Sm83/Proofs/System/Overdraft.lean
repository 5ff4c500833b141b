import Sm83.Proofs.System.Clock
import Sm83.Proofs.System.Host

/-!
The time a processor has spent on its program against the time that has passed. A step that fails is
charged to the processor alone, so the processor can be ahead of the clock, but only while its fault
is latched (`total_le_clock_iff`).
-/
namespace Sm83.System
variable {s t : System} {f : Fault}

/-- The clocks that the processor counts in a step that fails: for the opcode, and for waking. -/
def lostClocks (s : System) : Nat := if s.cpu.halted then 8 else 4

/-- How the counters of the processor and of the system move in a step. -/
inductive Account (s t : System) : Prop
  | covered (fault : t.cpu.fault = s.cpu.fault) (total : t.cpu.total + s.clock ≤ t.clock + s.cpu.total)
      (even : s.cpu.fault.isSome → t.cpu.total + s.clock = t.clock + s.cpu.total)
  | lost (f : Fault) (clear : s.cpu.fault = none) (failed : s.step.1 = .error f)
      (latched : t.cpu.fault = some f) (clock : t.clock = s.clock)
      (total : t.cpu.total = s.cpu.total + s.lostClocks)

private theorem total_underway (s : System) : s.underway.cpu.total = s.cpu.total + s.lostClocks := by
  obtain ⟨cycles,total⟩ := s.clocks_underway
  rw [total,cycles,lostClocks]
  split <;> rfl

theorem account_of_step (s : System) : s.Account s.step.2 := by
  obtain ⟨result,t,step,turn⟩ := s.exists_turn
  have failed : s.step.1 = result := by rw [step]
  rw [step]
  cases turn with
  | entered line accepted made =>
    have even : (s.settle (s.enter line) 20).cpu.total + s.clock =
        (s.settle (s.enter line) 20).clock + s.cpu.total := by
      simp only [settle,enter,Machine.inHandler]
      omega
    exact .covered rfl (Nat.le_of_eq even) fun _ => even
  | failed refused course made =>
    cases course with
    | latched f fault none =>
      have even : s.cpu.total + s.clock = s.clock + s.cpu.total := Nat.add_comm _ _
      exact .covered rfl (Nat.le_of_eq even) fun _ => even
    | refused clear awake illegal fetched => exact .lost _ clear failed rfl rfl s.total_underway
  | passed refused course made =>
    have beat := beat_of_step step
    have clear : s.cpu.fault = none := by
      cases course with
      | asleep clear | executed _ clear => exact clear
    refine .covered ?_ ?_ fun latched => ?_
    · rw [clear]
      cases course with
      | asleep => exact clear
      | executed i => exact Exec.fault_of_executed clear i
    · have elapsed := beat.elapsed
      rw [beat.clock,beat.total]
      split at elapsed <;> omega
    · rw [clear] at latched
      cases latched

theorem account_of_host {d : Deed} (timed : d.takesSteps = false) :
    (s.undergo d).clock = s.clock ∧
      ((s.undergo d).cpu.total = s.cpu.total ∧ (s.undergo d).cpu.fault = s.cpu.fault ∨
        (s.undergo d).cpu.total = 0 ∧ (s.undergo d).cpu.fault = none) := by
  cases d with
  | move m =>
    have other : m ≠ .step := by
      rintro rfl
      cases timed
    change (s.perform m).clock = _ ∧ ((s.perform m).cpu.total = _ ∧ (s.perform m).cpu.fault = _ ∨ _)
    rw [cpu_perform other,clock_perform other]
    exact ⟨rfl,.inl ⟨rfl,rfl⟩⟩
  | run => cases timed
  | tick | attachSink | set | wake => exact ⟨rfl,.inl ⟨rfl,rfl⟩⟩
  | reset | skipBoot => exact ⟨rfl,.inr ⟨rfl,rfl⟩⟩

/-- The system has gone on from the step in which the fault was met, with nothing but the clocks of
that step out of balance. -/
def WentOn (s : System) (f : Fault) : Prop := ∃ first rest,
  let u := powerOn.undergoAll first
  s = u.step.2.undergoAll rest ∧ u.cpu.fault = none ∧ u.step.1 = .error f ∧ u.cpu.total ≤ u.clock ∧
    s.cpu.total + u.clock = s.clock + (u.cpu.total + u.lostClocks)

theorem wentOn_undergo {d : Deed} (wentOn : s.WentOn f)
    (even : (s.undergo d).cpu.total + s.clock = (s.undergo d).clock + s.cpu.total) :
    (s.undergo d).WentOn f := by
  obtain ⟨first,rest,rfl,clear,failed,paid,balance⟩ := wentOn
  refine ⟨first,rest ++ [d],(undergoAll_concat _ _ _).symm,clear,failed,paid,?_⟩
  omega

def Balanced (s : System) : Prop :=
  (s.cpu.fault = none → s.cpu.total ≤ s.clock) ∧ ∀ f, s.cpu.fault = some f → s.WentOn f

theorem balanced_step (deeds : List Deed) (balanced : (powerOn.undergoAll deeds).Balanced) :
    (powerOn.undergoAll deeds).step.2.Balanced := by
  obtain ⟨clear,latched⟩ := balanced
  cases account_of_step (powerOn.undergoAll deeds) with
  | covered fault total even =>
    constructor
    · intro none
      have before := clear (fault.symm.trans none)
      omega
    · intro f some
      have before := fault.symm.trans some
      exact wentOn_undergo (d := .move .step) (latched f before) (even (by rw [before]; rfl))
  | lost f none failed some clock total =>
    constructor
    · intro still
      cases some.symm.trans still
    · intro g other
      cases some.symm.trans other
      refine ⟨deeds,[],rfl,none,failed,clear none,?_⟩
      omega

theorem balanced_host {d : Deed} (timed : d.takesSteps = false) (balanced : s.Balanced) :
    (s.undergo d).Balanced := by
  obtain ⟨clear,latched⟩ := balanced
  obtain ⟨clock,⟨total,fault⟩ | ⟨total,fault⟩⟩ := account_of_host (s := s) timed
  · constructor
    · intro none
      have before := clear (fault.symm.trans none)
      omega
    · intro f some
      exact wentOn_undergo (latched f (fault.symm.trans some)) (by omega)
  · constructor
    · intro
      omega
    · intro f some
      cases fault.symm.trans some

/-- Whatever a host has done to a system, no more time is counted as spent than has passed, as long
as no fault is latched. After a fault that is so exactly if the clock was ahead, before the step that
failed, by the clocks of that step. -/
theorem total_le_clock_iff (deeds : List Deed) :
    let s := powerOn.undergoAll deeds
    (s.cpu.fault = none → s.cpu.total ≤ s.clock) ∧
    ∀ f, s.cpu.fault = some f → ∃ first rest,
      let u := powerOn.undergoAll first
      s = u.step.2.undergoAll rest ∧ u.cpu.fault = none ∧ u.step.1 = .error f ∧ u.cpu.total ≤ u.clock ∧
        s.cpu.total + u.clock = s.clock + (u.cpu.total + u.lostClocks) ∧
        (s.cpu.total ≤ s.clock ↔ u.cpu.total + u.lostClocks ≤ u.clock) := by
  intro s
  have begun : powerOn.Balanced := by
    constructor
    · intro
      exact Nat.le_refl 0
    · intro f some
      cases some
  have balanced : s.Balanced :=
    undergoAll_induction begun balanced_step (fun _ _ => balanced_host) deeds
  refine ⟨balanced.1,?_⟩
  intro f latched
  obtain ⟨first,rest,reached,clear,failed,paid,balance⟩ := balanced.2 f latched
  refine ⟨first,rest,reached,clear,failed,paid,balance,?_⟩
  constructor
  · intro
    omega
  · intro
    omega

/-- An undefined opcode, met before any time has passed. -/
theorem not_forall_total_le_clock : ¬∀ deeds : List Deed,
    (powerOn.undergoAll deeds).cpu.total ≤ (powerOn.undergoAll deeds).clock := by
  intro held
  have charged : (powerOn.undergoAll [.move (.load 0 [0xD3]),.move .step]).cpu.total = 4 := by
    decide +kernel
  have stopped : (powerOn.undergoAll [.move (.load 0 [0xD3]),.move .step]).clock = 0 := by
    decide +kernel
  have bound := held [.move (.load 0 [0xD3]),.move .step]
  omega

end Sm83.System
