import Sm83.Proofs.System.Clock
import Sm83.Proofs.System.Run

/-!
Runs on a budget of clocks. Every step that succeeds takes one to seven machine cycles, so that a
budget lasts for no more steps than it has machine cycles, and is overdrawn by less than seven of
them. Main statement: `stop_of_run`.
-/
namespace Sm83.System
variable {s : System} {budget n : Nat} {done : System → Bool} {result : Except Fault Stop}

/-- A run may end after this number of steps, with this result. -/
inductive Ends (s : System) (budget : Nat) (done : System → Bool) : Nat → Except Fault Stop → Prop
  | unstarted (none : budget = 0) : Ends s budget done 0 (.ok .budget)
  | failed {n : Nat} {fault : Fault} (fails : (s.after n).step.1 = .error fault) :
      Ends s budget done (n + 1) (.error fault)
  | content {n : Nat} (taken : (s.after n).step.1.isOk) (holds : done (s.after (n + 1))) :
      Ends s budget done (n + 1) (.ok .condition)
  | spent {n : Nat} (taken : (s.after n).step.1.isOk) (fails : done (s.after (n + 1)) = false)
      (late : s.clock + budget ≤ (s.after (n + 1)).clock) : Ends s budget done (n + 1) (.ok .budget)

private theorem ends_zero_iff : s.Ends budget done 0 result ↔ budget = 0 ∧ result = .ok .budget := by
  constructor
  · rintro ⟨none⟩
    exact ⟨none,rfl⟩
  · rintro ⟨none,rfl⟩
    exact .unstarted none

private theorem outcome?_step (deadline : Nat) : outcome? done deadline s (n + 1) =
    match (s.after n).step.1 with
    | .error fault => some (.error fault)
    | .ok _ =>
      if done (s.after (n + 1)) then some (.ok .condition)
      else if deadline ≤ (s.after (n + 1)).clock then some (.ok .budget) else none := by
  rw [after_succ,outcome?]
  cases (s.after n).step with
  | mk result t => cases result <;> rfl

theorem ends_iff : s.Ends budget done n result ↔
    outcome? done (s.clock + budget) s n = some result := by
  cases n with
  | zero =>
    have late : s.clock + budget ≤ s.clock ↔ budget = 0 := by omega
    simp [ends_zero_iff,outcome?,late,eq_comm]
  | succ n =>
    rw [outcome?_step]
    constructor
    · intro ends
      cases ends with
      | failed fails => rw [fails]
      | content taken holds =>
        obtain ⟨k,step,-⟩ := exists_beat taken
        simp [step,holds]
      | spent taken fails late =>
        obtain ⟨k,step,-⟩ := exists_beat taken
        simp [step,fails,late]
    · intro outcome
      split at outcome
      · rename_i fault step
        cases outcome
        exact .failed step
      · rename_i k step
        have taken : (s.after n).step.1.isOk := by rw [step]; rfl
        split at outcome
        · rename_i holds
          cases outcome
          exact .content taken holds
        · rename_i fails
          split at outcome
          · rename_i late
            cases outcome
            exact .spent taken (Bool.eq_false_iff.mpr fails) late
          · cases outcome

private theorem early_of_outcome {deadline : Nat} (going : outcome? done deadline s n = none) :
    (s.after n).clock < deadline := by
  cases n with
  | zero => simpa [outcome?,after] using going
  | succ n => exact (going_of_outcome going).2.2

private theorem clock_step_of_taken (taken : s.step.1.isOk) :
    s.clock + 4 ≤ s.step.2.clock ∧ s.step.2.clock ≤ s.clock + 28 := by
  obtain ⟨n,-,beat⟩ := exists_beat taken
  obtain ⟨-,least,most⟩ := beat.bounds
  rw [beat.clock]
  exact ⟨Nat.add_le_add_left least _,Nat.add_le_add_left most _⟩

private theorem clock_step_le (s : System) : s.step.2.clock ≤ s.clock + 28 := by
  cases result : s.step.1 with
  | ok n => exact (clock_step_of_taken (by rw [result]; rfl)).2
  | error fault =>
    rw [clock_step,ticks,result]
    exact Nat.le_add_right _ _

private theorem clock_after (taken : s.Runs n) : s.clock + 4 * n ≤ (s.after n).clock := by
  induction n with
  | zero => exact Nat.le_refl _
  | succ n ih =>
    have before := ih fun k earlier => taken k (Nat.lt_succ_of_lt earlier)
    have last := (clock_step_of_taken (taken n (Nat.lt_succ_self n))).1
    rw [after_succ]
    omega

/-- A run ends, with the result that is due, after the first number of steps for which there is one:
upon a fault, upon the condition, or on the budget, in this order. It takes no more steps than the
budget has machine cycles, none if there is no budget, and passes the end of the budget by less than
the time of one step, so that the clock stays within its 64 bits. -/
theorem stop_of_run (room : s.clock + budget + 28 ≤ lastClock) (done : System → Bool) :
    ∃ n result, s.run budget done = (result,s.after n) ∧ s.Ends budget done n result ∧
      (∀ k < n, ∀ r, ¬s.Ends budget done k r) ∧
      n ≤ (budget + 3) / 4 ∧ (s.after n).clock ≤ lastClock ∧
      (result = .ok .budget →
        s.clock + budget ≤ (s.after n).clock ∧ (s.after n).clock < s.clock + budget + 28) := by
  obtain ⟨n,result,run,outcome,before⟩ := exists_outcome s budget done
  have deadline : s.deadline budget = s.clock + budget := by
    rw [System.deadline]
    exact Nat.min_eq_left (by omega)
  rw [deadline] at outcome before
  have ends := ends_iff.mpr outcome
  have first : ∀ k < n, ∀ r, ¬s.Ends budget done k r := by
    intro k earlier r other
    cases (before k earlier).symm.trans (ends_iff.mp other)
  refine ⟨n,result,run,ends,first,?_⟩
  cases n with
  | zero =>
    obtain ⟨rfl,rfl⟩ := ends_zero_iff.mp ends
    exact ⟨Nat.zero_le _,by simp only [after]; omega,fun _ => by simp [after]⟩
  | succ n =>
    have taken : s.Runs n := fun k earlier =>
      (going_of_outcome (before (k + 1) (Nat.succ_lt_succ earlier))).1
    have early := early_of_outcome (before n (Nat.lt_succ_self n))
    have so_far := clock_after taken
    have last := (s.after n).clock_step_le
    rw [← after_succ] at last
    refine ⟨by omega,by omega,?_⟩
    rintro rfl
    cases ends with
    | spent _ _ late => exact ⟨late,by omega⟩

/-- Asleep, with nothing that could wake it. -/
def abandoned : System := {powerOn with cpu.halted := true, clock := 7}

theorem stop_of_run_abandoned : abandoned.clock + 10 + 28 ≤ lastClock ∧
    abandoned.run 10 (fun t => 19 ≤ t.clock) = (.ok .condition,abandoned.after 3) ∧
    abandoned.run 10 (fun t => 20 ≤ t.clock) = (.ok .budget,abandoned.after 3) ∧
    (abandoned.after 3).clock < 7 + 10 + 28 := by
  have room : abandoned.clock + 10 + 28 ≤ lastClock := by decide
  obtain ⟨n,result,run,ends,-,few,-⟩ := stop_of_run room fun t => 19 ≤ t.clock
  obtain ⟨k,result',run',ends',-,few',-,beyond⟩ := stop_of_run room fun t => 20 ≤ t.clock
  rw [ends_iff] at ends ends'
  -- Three steps of sleep spend the budget, and bring the condition of the first run about.
  obtain rfl | rfl | rfl | rfl : n = 0 ∨ n = 1 ∨ n = 2 ∨ n = 3 := by omega
  all_goals cases ends
  obtain rfl | rfl | rfl | rfl : k = 0 ∨ k = 1 ∨ k = 2 ∨ k = 3 := by omega
  all_goals cases ends'
  exact ⟨room,run,run',(beyond rfl).2⟩

end Sm83.System
