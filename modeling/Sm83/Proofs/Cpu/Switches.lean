import Sm83.Proofs.Cpu.Step

/-!
The switches of a processor through all that its surroundings can do with it. At most one of the
window after `EI`, sleep, the HALT bug and the latched fault is there at a time (`Consistent`), and
the HALT bug from the HALT that arms it to the next fetch of an opcode (`switches_of_history`).
-/
namespace Sm83

/-- What the surroundings of a processor can do with it, on a bus that may be another each time. -/
inductive Use : Type 1
  | step {σ : Type} [Bus σ] (bus : σ)
  | dispatch {σ : Type} [Bus σ] (bus : σ) (a : UInt16)
  | wake
  | reset
  | skipBoot

namespace Machine
variable {σ : Type} [Bus σ]

def Fetches (m : Machine σ) : Prop := (Exec.accesses (fun _ => Exec.step) m).head? = some m.fetch

structure Arms (m : Machine σ) : Prop where
  fetches : m.Fetches
  halt : Instr.decode m.opcode = some .halt
  off : m.cpu.ime = false
  waits : (Bus.interrupts m.underway.bus).any

/-- The step goes on with its opcode from PC `next`, and with the HALT bug disarmed. -/
structure ContinuesAt (m : Machine σ) (next : UInt16) : Prop where
  pc : m.underway.cpu.regs.pc = next
  unarmed : m.underway.cpu.haltBug = false
  executes : ∀ i, Instr.decode m.opcode = some i →
    (Exec.step.run m).2 = ((Exec.execute i).run m.underway).2
  refuses : Instr.decode m.opcode = none → (Exec.step.run m).2.cpu.regs = m.underway.cpu.regs

end Machine

namespace Cpu
variable {c : Cpu}

/-- A processor that has been used as the list says, the latest use first. -/
def after : List Use → Cpu
  | [] => .powerOn
  | @Use.step _ _ bus :: earlier => (Exec.step.run ⟨after earlier,bus⟩).2.cpu
  | @Use.dispatch _ _ bus a :: earlier => ((Exec.dispatch a).run ⟨after earlier,bus⟩).2.cpu
  | .wake :: earlier => (after earlier).wake
  | .reset :: _ => .powerOn
  | .skipBoot :: _ => .postBoot

def Permitted : List Use → Prop
  | [] => True
  | @Use.dispatch _ _ _ _ :: earlier => (after earlier).acceptsInterrupts ∧ Permitted earlier
  | _ :: earlier => Permitted earlier

/-- The latest use, apart from wakes, is a step with a HALT that arms the HALT bug. -/
def Primed : List Use → Prop
  | @Use.step _ _ bus :: earlier => (⟨after earlier,bus⟩ : Machine _).Arms
  | .wake :: earlier => Primed earlier
  | _ => False

structure Consistent (c : Cpu) : Prop where
  window : c.eiDelay → c.ime ∧ c.halted = false ∧ c.haltBug = false
  armed : c.haltBug → c.ime = false ∧ c.halted = false
  latched : c.fault.isSome → c.halted = false ∧ c.eiDelay = false ∧ c.haltBug = false

structure Neutral (c : Cpu) : Prop where
  closed : c.eiDelay = false
  awake : c.halted = false
  unarmed : c.haltBug = false
  clear : c.fault = none

private theorem elim_of_unset {b : Bool} {p : Prop} (unset : b = false) (set : b) : p := by
  cases unset.symm.trans set

private theorem elim_of_clear {p : Prop} (clear : c.fault = none) (latched : c.fault.isSome) : p := by
  rw [clear] at latched
  cases latched

private theorem consistent_of_unset (closed : c.eiDelay = false) (unarmed : c.haltBug = false)
    (clear : c.fault = none) : c.Consistent :=
  ⟨elim_of_unset closed,elim_of_unset unarmed,elim_of_clear clear⟩

theorem roused_halted (c : Cpu) : c.roused.halted = false := by
  cases halted : c.halted <;> simp [roused,halted,wake,charge]

theorem fetched_halted (c : Cpu) : c.fetched.halted = c.halted := by
  simp only [fetched]
  split <;> rfl

private theorem fetched_haltBug (c : Cpu) : c.fetched.haltBug = false := by
  cases armed : c.haltBug <;> simp [fetched,armed,charge]

end Cpu

namespace Machine
variable {σ : Type} [Bus σ]

theorem neutral_underway {m : Machine σ} (clear : m.cpu.fault = none) : m.underway.cpu.Neutral := by
  obtain ⟨-,closed,fault⟩ := m.cpu.fetched_roused
  have awake := m.cpu.roused.fetched_halted.trans m.cpu.roused_halted
  exact ⟨closed,awake,m.cpu.roused.fetched_haltBug,fault.trans clear⟩

end Machine

theorem Instr.consistent_switch (i : Instr) (waits : Bool) {c : Cpu} (neutral : c.Neutral) :
    (i.switch waits c).Consistent ∧
      ((i.switch waits c).haltBug ↔ i = .halt ∧ c.ime = false ∧ waits) := by
  obtain ⟨closed,awake,unarmed,clear⟩ := neutral
  cases i with
  | halt =>
    simp only [switch]
    split
    · rename_i arms
      obtain ⟨off,waiting⟩ : c.ime = false ∧ waits := by simpa using arms
      have consistent : ({c with haltBug := true} : Cpu).Consistent :=
        ⟨Cpu.elim_of_unset closed,fun _ => ⟨off,awake⟩,Cpu.elim_of_clear clear⟩
      exact ⟨consistent,by simp [off,waiting]⟩
    · rename_i sleeps
      have kept : ¬(c.ime = false ∧ waits) := by simpa using sleeps
      exact ⟨Cpu.consistent_of_unset closed unarmed clear,by simp [unarmed,kept]⟩
  | ei =>
    have consistent : (switch waits c .ei).Consistent :=
      ⟨fun _ => ⟨rfl,awake,unarmed⟩,Cpu.elim_of_unset unarmed,Cpu.elim_of_clear clear⟩
    exact ⟨consistent,by simp [switch,unarmed]⟩
  | di => exact ⟨Cpu.consistent_of_unset rfl unarmed clear,by simp [switch,unarmed]⟩
  | _ => exact ⟨Cpu.consistent_of_unset closed unarmed clear,by simp [switch,unarmed]⟩

namespace Machine
variable {σ : Type} [Bus σ] {m : Machine σ}

private theorem not_arms_of_idle (made : Exec.accesses (fun _ => Exec.step) m = []) : ¬m.Arms := by
  rintro ⟨fetches,-⟩
  rw [Fetches,made] at fetches
  cases fetches

theorem consistent_step (consistent : m.cpu.Consistent) :
    (Exec.step.run m).2.cpu.Consistent ∧ ((Exec.step.run m).2.cpu.haltBug ↔ m.Arms) := by
  obtain ⟨window,armed,latched⟩ := consistent
  obtain ⟨result,t,run,course⟩ := Exec.exists_course m
  rw [run]
  cases course with
  | latched f fault made =>
    -- The step leaves the HALT bug as it is; none is armed beside a fault.
    have unarmed := (latched (by rw [fault]; rfl)).2.2
    exact ⟨⟨window,armed,latched⟩,iff_of_false (by simp [unarmed]) (not_arms_of_idle made)⟩
  | asleep clear halted quiet made =>
    have unarmed : m.cpu.haltBug = false := by
      apply Bool.eq_false_iff.mpr
      intro set
      cases (armed set).2.symm.trans halted
    refine ⟨Cpu.consistent_of_unset rfl unarmed clear,iff_of_false (by simp [unarmed]) ?_⟩
    exact not_arms_of_idle made
  | refused clear awake decoded made =>
    obtain ⟨closed,still,unarmed,-⟩ := neutral_underway clear
    refine ⟨⟨Cpu.elim_of_unset closed,Cpu.elim_of_unset unarmed,fun _ => ⟨still,closed,unarmed⟩⟩,
      iff_of_false (by simp [unarmed]) ?_⟩
    intro arms
    cases decoded.symm.trans arms.halt
  | executed i clear awake decoded made =>
    obtain ⟨regs,k,moved⟩ := Exec.run_execute i m.underway
    obtain ⟨consistent,bug⟩ :=
      i.consistent_switch (Bus.interrupts m.underway.bus).any (neutral_underway clear)
    have ime := m.cpu.fetched_roused.1
    have fetches : m.Fetches := by
      rw [Fetches,made]
      rfl
    rw [moved]
    refine ⟨⟨consistent.window,consistent.armed,consistent.latched⟩,bug.trans ?_⟩
    constructor
    · rintro ⟨rfl,off,waits⟩
      exact ⟨fetches,decoded,ime.symm.trans off,waits⟩
    · rintro ⟨-,halt,off,waits⟩
      exact ⟨Option.some.inj (decoded.symm.trans halt),ime.trans off,waits⟩

theorem continuesAt_of_fetches (fetches : m.Fetches) :
    m.ContinuesAt (if m.cpu.haltBug then m.cpu.regs.pc else m.cpu.regs.pc + 1) := by
  suffices carried : (∀ i, Instr.decode m.opcode = some i →
      (Exec.step.run m).2 = ((Exec.execute i).run m.underway).2) ∧
      (Instr.decode m.opcode = none → (Exec.step.run m).2.cpu.regs = m.underway.cpu.regs) from
    ⟨m.pc_underway,m.cpu.roused.fetched_haltBug,carried.1,carried.2⟩
  obtain ⟨result,t,run,course⟩ := Exec.exists_course m
  rw [run]
  cases course with
  | latched f fault made | asleep clear halted quiet made =>
    rw [Fetches,made] at fetches
    cases fetches
  | refused clear awake decoded =>
    refine ⟨?_,fun _ => rfl⟩
    intro i legal
    cases decoded.symm.trans legal
  | executed i clear awake decoded =>
    constructor
    · intro j legal
      cases decoded.symm.trans legal
      rfl
    · intro illegal
      cases decoded.symm.trans illegal

private theorem fetches_of_armed (consistent : m.cpu.Consistent) (bug : m.cpu.haltBug) : m.Fetches := by
  obtain ⟨-,awake⟩ := consistent.armed bug
  obtain ⟨result,t,run,course⟩ := Exec.exists_course m
  cases course with
  | latched f fault =>
    have unarmed := (consistent.latched (by rw [fault]; rfl)).2.2
    exact Cpu.elim_of_unset unarmed bug
  | asleep clear halted => cases awake.symm.trans halted
  | refused _ _ _ made | executed _ _ _ _ made =>
    rw [Fetches,made]
    rfl

end Machine

namespace Cpu
variable {c : Cpu}

theorem not_haltBug_of_accepts (consistent : c.Consistent) (accepts : c.acceptsInterrupts) :
    c.haltBug = false := by
  rw [acceptsInterrupts,Bool.and_eq_true] at accepts
  apply Bool.eq_false_iff.mpr
  intro set
  cases (consistent.armed set).1.symm.trans accepts.1

theorem consistent_after {uses : List Use} (permitted : Permitted uses) :
    (after uses).Consistent ∧ ((after uses).haltBug ↔ Primed uses) := by
  induction uses with
  | nil => exact ⟨consistent_of_unset rfl rfl rfl,by simp [after,powerOn,Primed]⟩
  | cons u earlier ih =>
    cases u with
    | step bus => exact Machine.consistent_step (ih permitted).1
    | dispatch bus a =>
      obtain ⟨accepts,permitted⟩ := permitted
      have consistent := (ih permitted).1
      have unarmed := not_haltBug_of_accepts consistent accepts
      have entered : (after (.dispatch bus a :: earlier)).haltBug = false := unarmed
      exact ⟨⟨elim_of_unset rfl,elim_of_unset entered,fun _ => ⟨rfl,rfl,entered⟩⟩,
        iff_of_false (by simp [entered]) id⟩
    | wake =>
      obtain ⟨⟨window,armed,latched⟩,bug⟩ := ih permitted
      refine ⟨⟨?_,?_,?_⟩,bug⟩
      · intro set
        exact ⟨(window set).1,rfl,(window set).2.2⟩
      · intro set
        exact ⟨(armed set).1,rfl⟩
      · intro set
        exact ⟨rfl,(latched set).2⟩
    | reset | skipBoot =>
      exact ⟨consistent_of_unset rfl rfl rfl,by simp [after,powerOn,postBoot,Primed]⟩

/-- The switches of a processor after any uses. The window after `EI` is open only while interrupts are
on, and none of sleep, the HALT bug and the window goes with another or with a fault. No handler is
entered with the HALT bug armed, and an opcode fetch leaves PC in place exactly if a HALT has armed it
and nothing but wakes has come between. -/
theorem switches_of_history (uses : List Use) (permitted : Permitted uses) :
    let c := after uses
    (c.eiDelay → c.ime ∧ c.halted = false ∧ c.haltBug = false) ∧
    (c.haltBug → c.ime = false ∧ c.halted = false) ∧
    (c.fault.isSome → c.halted = false ∧ c.eiDelay = false ∧ c.haltBug = false) ∧
    (c.acceptsInterrupts → c.haltBug = false) ∧
    (c.haltBug ↔ Primed uses) ∧
    ∀ (σ : Type) [Bus σ] (bus : σ),
      let m : Machine σ := ⟨c,bus⟩
      (Primed uses → m.Fetches ∧ m.ContinuesAt c.regs.pc) ∧
      (¬Primed uses → m.Fetches → m.ContinuesAt (c.regs.pc + 1)) := by
  intro c
  obtain ⟨consistent,bug⟩ := consistent_after permitted
  have accepting := not_haltBug_of_accepts consistent
  refine ⟨consistent.window,consistent.armed,consistent.latched,accepting,bug,?_⟩
  intro σ _ bus m
  constructor
  · intro primed
    have armed : m.cpu.haltBug := bug.mpr primed
    have fetches := Machine.fetches_of_armed consistent armed
    have next := Machine.continuesAt_of_fetches fetches
    rw [if_pos armed] at next
    exact ⟨fetches,next⟩
  · intro unprimed fetches
    have unarmed : ¬m.cpu.haltBug := fun set => unprimed (bug.mp set)
    have next := Machine.continuesAt_of_fetches fetches
    rw [if_neg unarmed] at next
    exact next

/-- Interrupts are switched on, and the handler that is entered goes to HALT. -/
def parked : FlatBus where
  memory := Memory.zero.store 0 [0xFB] |>.store 0x40 [0x76,0x3C]
  interrupts := .ofByte 1

theorem switches_of_history_parked :
    let uses : List Use := [.wake,.step parked,.dispatch parked 0x40,.step parked,.step parked]
    Permitted uses ∧ Primed uses ∧ (after uses).regs.pc = 0x41 ∧
      (⟨after uses,parked⟩ : Machine FlatBus).ContinuesAt 0x41 := by
  intro uses
  have permitted : Permitted uses := ⟨by decide +kernel,trivial⟩
  have armed : (after uses).haltBug := by decide +kernel
  have pc : (after uses).regs.pc = 0x41 := by decide +kernel
  obtain ⟨-,-,-,-,bug,fetching⟩ := switches_of_history uses permitted
  have primed := bug.mp armed
  obtain ⟨-,next⟩ := (fetching FlatBus parked).1 primed
  rw [pc] at next
  exact ⟨permitted,primed,pc,next⟩

end Cpu
end Sm83
