import Sm83.Proofs.System.Host
import Sm83.Proofs.System.Latch

/-!
Runs as a whole. Observers who judge alike end a run alike (`runUntil_alike`), and a run ends after
the first number of steps for which there is an outcome, and with that outcome (`exists_outcome`).
-/
namespace Sm83.System
variable {ω ν : Type} {o : Observer ω} {p : Observer ν} {s t : System} {deadline n : Nat} {w : ω}

theorem runUntil_late (late : ¬s.clock < deadline) : runUntil o deadline s w = (.ok .budget,s,w) := by
  rw [runUntil,if_neg late]

theorem runUntil_taken (early : s.clock < deadline) (taken : s.step = (.ok n,t)) :
    runUntil o deadline s w = match o.reached t (o.leaving s w) with
      | (true,w) => (.ok .condition,t,w)
      | (false,w) => runUntil o deadline t w := by
  rw [runUntil,if_pos early]
  dsimp only
  split
  · rename_i failed
    cases taken.symm.trans failed
  · rename_i again
    cases taken.symm.trans again
    rfl

theorem runUntil_ended (early : s.clock < deadline) (taken : s.step = (.ok n,t))
    {v : ω} (ended : o.reached t (o.leaving s w) = (true,v)) :
    runUntil o deadline s w = (.ok .condition,t,v) := by
  rw [runUntil_taken early taken,ended]

theorem runUntil_going (early : s.clock < deadline) (taken : s.step = (.ok n,t))
    {v : ω} (going : o.reached t (o.leaving s w) = (false,v)) :
    runUntil o deadline s w = runUntil o deadline t v := by
  rw [runUntil_taken early taken,going]

/-- What relates the memories of two observers, and makes them judge alike, is kept by each step. -/
def Agreeing (o : Observer ω) (p : Observer ν) (R : System → ω → ν → Prop) : Prop :=
  ∀ (s t : System) (n : Nat) (w : ω) (v : ν), R s w v → s.step = (.ok n,t) →
    let mine := o.reached t (o.leaving s w)
    let yours := p.reached t (p.leaving s v)
    mine.1 = yours.1 ∧ (mine.1 = false → R t mine.2 yours.2)

theorem runUntil_alike {R : System → ω → ν → Prop} (agreeing : Agreeing o p R) (deadline : Nat) :
    ∀ v, R s w v → (runUntil o deadline s w).1 = (runUntil p deadline s v).1 ∧
      (runUntil o deadline s w).2.1 = (runUntil p deadline s v).2.1 := by
  fun_induction runUntil o deadline s w with
  | case1 s w early _ fault t failed =>
    intro v _
    rw [runUntil_failed early failed]
    exact ⟨rfl,rfl⟩
  | case2 s w early _ n t taken _ w' ended =>
    intro v related
    obtain ⟨same,-⟩ := agreeing s t n w v related taken
    rw [ended] at same
    rw [runUntil_ended early taken (Prod.ext same.symm rfl)]
    exact ⟨rfl,rfl⟩
  | case3 s w early _ n t taken _ w' going ih =>
    intro v related
    obtain ⟨same,rest⟩ := agreeing s t n w v related taken
    rw [going] at same rest
    rw [runUntil_going early taken (Prod.ext same.symm rfl)]
    exact ih _ (rest rfl)
  | case4 s w late =>
    intro v _
    rw [runUntil_late late]
    exact ⟨rfl,rfl⟩

/-- What holds of each state and the observer's memory of the way to it holds where a run ends, if
the observer learns of a step as it is taken. -/
theorem runUntil_invariant {I : System → ω → Prop} (silent : ∀ t w, (o.reached t w).2 = w)
    (kept : ∀ s w, I s w → I s.step.2 (o.leaving s w)) (deadline : Nat) (begun : I s w) :
    I (runUntil o deadline s w).2.1 (runUntil o deadline s w).2.2 := by
  fun_induction runUntil o deadline s w with
  | case1 s w _ _ fault t failed =>
    have next := kept s w begun
    rw [failed] at next
    exact next
  | case2 s w _ left n t taken _ w' ended =>
    have next := kept s w begun
    have memory := silent t left
    rw [taken] at next
    rw [ended] at memory
    change w' = left at memory
    rw [memory]
    exact next
  | case3 s w _ left n t taken _ w' going ih =>
    have next := kept s w begun
    have memory := silent t left
    rw [taken] at next
    rw [going] at memory
    change w' = left at memory
    rw [memory] at ih ⊢
    exact ih next
  | case4 => exact begun

/-- How a run ends if it ends after `n` steps, upon a fault, the condition or the deadline, tested in
this order. -/
def outcome? (done : System → Bool) (deadline : Nat) (s : System) : Nat → Option (Except Fault Stop)
  | 0 => if deadline ≤ s.clock then some (.ok .budget) else none
  | n + 1 => match (s.after n).step with
    | (.error fault,_) => some (.error fault)
    | (.ok _,t) =>
      if done t then some (.ok .condition) else if deadline ≤ t.clock then some (.ok .budget) else none

theorem outcome?_succ {done : System → Bool} (taken : s.step = (.ok n,t)) (going : done t = false)
    (k : Nat) : outcome? done deadline s (k + 1) = outcome? done deadline t k := by
  cases k with
  | zero => simp [outcome?,after,taken,going]
  | succ k => rw [outcome?,outcome?,after,taken]

theorem going_of_outcome {done : System → Bool} (going : outcome? done deadline s (n + 1) = none) :
    (s.after n).step.1.isOk ∧ done (s.after (n + 1)) = false ∧ (s.after (n + 1)).clock < deadline := by
  rw [after_succ]
  simp only [outcome?] at going
  split at going
  · cases going
  · rename_i k t taken
    rw [taken]
    split at going
    · cases going
    · rename_i undone
      split at going
      · cases going
      · rename_i early
        exact ⟨rfl,Bool.eq_false_iff.mpr undone,Nat.lt_of_not_le early⟩

theorem exists_outcome (s : System) (budget : Nat) (done : System → Bool) :
    ∃ n result, s.run budget done = (result,s.after n) ∧
      outcome? done (s.deadline budget) s n = some result ∧
      ∀ k < n, outcome? done (s.deadline budget) s k = none := by
  suffices ended : ∀ (o : Observer Unit) (deadline : Nat), o.reached = (fun t _ => (done t,())) →
      ∃ n, (runUntil o deadline s ()).2.1 = s.after n ∧
        outcome? done deadline s n = some (runUntil o deadline s ()).1 ∧
        ∀ k < n, outcome? done deadline s k = none by
    obtain ⟨n,reached,outcome,before⟩ := ended ⟨fun _ _ => (),fun t _ => (done t,())⟩ (s.deadline budget) rfl
    exact ⟨n,_,Prod.ext rfl reached,outcome,before⟩
  intro o deadline judged
  have first {s : System} (early : s.clock < deadline) : outcome? done deadline s 0 = none := by
    simp [outcome?,early]
  fun_induction runUntil o deadline s () with
  | case1 s w early _ fault t failed =>
    refine ⟨1,by simp [after,failed],by simp [outcome?,after,failed],?_⟩
    intro k below
    obtain rfl := Nat.lt_one_iff.mp below
    exact first early
  | case2 s w early left n t taken _ w' ended =>
    rw [judged] at ended
    have held : done t = true := congrArg Prod.fst ended
    refine ⟨1,by simp [after,taken],by simp [outcome?,after,taken,held],?_⟩
    intro k below
    obtain rfl := Nat.lt_one_iff.mp below
    exact first early
  | case3 s w early left n t taken _ w' going ih =>
    rw [judged] at going
    have open' : done t = false := congrArg Prod.fst going
    obtain ⟨k,reached,outcome,before⟩ := ih
    refine ⟨k + 1,?_,?_,?_⟩
    · rw [reached,after,taken]
    · rw [outcome?_succ taken open',outcome]
    · intro j below
      cases j with
      | zero => exact first early
      | succ j => rw [outcome?_succ taken open',before j (Nat.lt_of_succ_lt_succ below)]
  | case4 s w late => exact ⟨0,rfl,by simp [outcome?,Nat.le_of_not_lt late],fun k below => by omega⟩

end Sm83.System
