import Sm83.Proofs.System.Step

/-!
The life of a system after a fault. Its processor does no more work, but the system still takes an
interrupt: `latched_iff` says exactly when the fault holds everything in place.
-/
namespace Sm83

inductive Call
  | step
  | run (budget : Nat) (done : System → Bool)

/-- The call is sure to take a step: a run does if it has a budget and the clock has not ended. -/
def Call.goesOn (clock : Nat) : Call → Prop
  | step => True
  | run budget _ => 0 < budget ∧ clock < System.lastClock

def failure? {α : Type} : Except Fault α → Option Fault
  | .error f => some f
  | .ok _ => none

namespace System

def call (s : System) : Call → Option Fault × System
  | .step => (failure? s.step.1,s.step.2)
  | .run budget done => (failure? (s.run budget done).1,(s.run budget done).2)

def calls (s : System) : List Call → List (Option Fault) × System
  | [] => ([],s)
  | c :: rest => ((s.call c).1 :: ((s.call c).2.calls rest).1,((s.call c).2.calls rest).2)

variable {s : System} {f : Fault}

theorem step_latched (latched : s.cpu.fault = some f) (refused : ¬s.interruptible) :
    s.step = (.error f,s) := by
  have act := s.act_eq
  rw [s.accepted_eq_none_iff.mpr refused] at act
  simp only [step,act,Exec.run_step_latched latched]

theorem runUntil_failed {ω : Type} {o : Observer ω} {deadline : Nat} {t : System} {w : ω}
    (early : s.clock < deadline) (failed : s.step = (.error f,t)) :
    runUntil o deadline s w = (.error f,t,o.leaving s w) := by
  rw [runUntil,if_pos early]
  dsimp only
  split
  · rename_i taken
    cases failed.symm.trans taken
    rfl
  · rename_i taken
    cases failed.symm.trans taken

theorem run_latched (latched : s.cpu.fault = some f) (refused : ¬s.interruptible) {budget : Nat}
    {done : System → Bool} (budgeted : 0 < budget) (early : s.clock < lastClock) :
    s.run budget done = (.error f,s) := by
  have before : s.clock < s.deadline budget := by
    simp only [deadline]
    omega
  rw [run,runUntil_failed before (step_latched latched refused)]

theorem calls_latched (latched : s.cpu.fault = some f) (refused : ¬s.interruptible)
    (cs : List Call) (going : ∀ c ∈ cs, c.goesOn s.clock) :
    s.calls cs = (List.replicate cs.length (some f),s) := by
  induction cs with
  | nil => rfl
  | cons c rest ih =>
    have first : s.call c = (some f,s) := by
      cases c with
      | step => rw [call,step_latched latched refused]; rfl
      | run budget done =>
        obtain ⟨budgeted,early⟩ := going _ List.mem_cons_self
        rw [call,run_latched latched refused budgeted early]
        rfl
    have others := ih fun c member => going c (List.mem_cons_of_mem _ member)
    rw [calls,first,others]
    rfl

/-- A handler is entered in spite of the fault, which the latch keeps. -/
theorem enter_latched (latched : s.cpu.fault = some f) {line : Line}
    (accepted : s.accepted = some line) :
    s.step = (.ok 20,s.settle (s.enter line) 20) ∧
      (s.settle (s.enter line) 20).cpu.fault = some f ∧
      ¬(s.settle (s.enter line) 20).interruptible := by
  have act := s.act_eq
  rw [accepted] at act
  refine ⟨?_,latched,?_⟩
  · simp only [step,act]
    rfl
  · intro again
    cases again.1

/-- A fault holds a system in place, whatever is asked of it, exactly unless an interrupt is taken.
Then the next step enters its handler, and everything stands still from there on. -/
theorem latched_iff (latched : s.cpu.fault = some f) :
    ((∀ cs : List Call, (∀ c ∈ cs, c.goesOn s.clock) →
        s.calls cs = (List.replicate cs.length (some f),s)) ↔ ¬s.interruptible) ∧
      ∀ line t, s.accepted = some line → t = s.settle (s.enter line) 20 →
        s.step = (.ok 20,t) ∧ ∀ cs : List Call, (∀ c ∈ cs, c.goesOn t.clock) →
          t.calls cs = (List.replicate cs.length (some f),t) := by
  refine ⟨⟨fun held taken => ?_,calls_latched latched⟩,?_⟩
  · obtain ⟨line,accepted⟩ := s.exists_accepted_iff.mpr taken
    have entered := (enter_latched latched accepted).1
    have stuck := held [.step] (by simp [Call.goesOn])
    simp [calls,call,entered,failure?] at stuck
  · rintro line t accepted rfl
    obtain ⟨entered,still,refused⟩ := enter_latched latched accepted
    exact ⟨entered,calls_latched still refused⟩

/-- A system that switches interrupts on and then meets an undefined opcode, with an enabled line
requested all the while. -/
def startled : System :=
  { bus :=
      { memory := Memory.zero.store 0 [0xFB,0xDD]
        interruptEnable := 1
        interruptFlags := 1 } }

private theorem startled_fault : startled.step.2.step.2.cpu.fault = some (.illegal 0xDD 1) := by
  decide +kernel

private theorem startled_accepted : startled.step.2.step.2.accepted = some 0 := by
  decide +kernel

theorem latched_iff_startled :
    startled.step.2.step.2.cpu.fault = some (.illegal 0xDD 1) ∧
      startled.step.2.step.2.accepted = some 0 ∧ startled.step.2.step.2.step.1 = .ok 20 := by
  have entered := (latched_iff startled_fault).2 0 _ startled_accepted rfl
  refine ⟨startled_fault,startled_accepted,?_⟩
  rw [entered.1]

theorem not_forall_latched_step :
    ¬∀ (s : System) (f : Fault), s.cpu.fault = some f → s.step = (.error f,s) := by
  intro held
  have entered := (enter_latched startled_fault startled_accepted).1
  have stuck := held _ _ startled_fault
  cases congrArg Prod.fst (entered.symm.trans stuck)

end System
end Sm83
