import Sm83.Proofs.Timer.Counting
import Sm83.Proofs.Timer.Phases

/-!
How long TIMA reads 0 after an overflow. The count down to the reload starts from the same number
whatever made TIMA count, but a clock takes its first step itself. So a write that overflows TIMA is
followed by a reload after one clock more than an edge of the divider (`reloadsAt_four_iff`).
-/
namespace Sm83.Timer
variable {t : Timer} {x : Signal} {k j d : Nat}

/-- TIMA reads 0 and asks for nothing, until the `d`-th clock from now loads it from TMA. -/
structure ReloadsAt (t : Timer) (d : Nat) : Prop where
  waits : ∀ calls, calls.sum < d → (t.ticks calls).tima = 0 ∧ true ∉ t.reports calls
  loads : ∀ calls, calls.sum = d → (t.ticks calls).tima = t.tma
  tells : ∀ calls n, calls.sum < d → d ≤ calls.sum + n → ((t.ticks calls).tick n).2

private theorem reloadsAt_of_tick (waits : ∀ j < d, (t.tick j).1.tima = 0 ∧ (t.tick j).2 = false)
    (loads : (t.tick d).1.tima = t.tma ∧ (t.tick d).2) : t.ReloadsAt d where
  waits calls early := by
    obtain ⟨last,told⟩ := t.ticks_eq calls
    rw [last,told]
    obtain ⟨tima,silent⟩ := waits _ early
    exact ⟨tima,Bool.eq_false_iff.mp silent⟩
  loads calls due := by
    rw [(t.ticks_eq calls).1,due]
    exact loads.1
  tells calls n early late := by
    have whole : (t.tick (calls.sum + n)).2 := by
      obtain ⟨rest,length⟩ := Nat.exists_eq_add_of_le late
      rw [length,tick_add,loads.2,Bool.true_or]
    rw [tick_add,(waits _ early).2,Bool.false_or] at whole
    rw [(t.ticks_eq calls).1]
    exact whole

/-- A bit that has just fallen cannot fall again for half of its period. -/
private theorem still_of_low (low : t.input = false) (soon : j < 8) (r : Option Nat) :
    ({t with divider := t.divider + UInt16.ofNat j, reload := r} : Timer).falls .clock = false := by
  let u : Timer := {t with divider := t.divider + UInt16.ofNat j, reload := r}
  change u.falls .clock = false
  apply Bool.eq_false_iff.mpr
  intro falls
  have on : t.enabled := by
    simp only [Timer.falls,input,Bool.and_eq_true] at falls
    exact falls.1.1
  have edge : (u.divider.toNat + 1) % period t.rate = 0 := (falls_clock_iff (t := u) on).mp falls
  rw [divider_after] at edge
  rw [input,on,Bool.true_and,← Bool.not_eq_true,testBit_selectedBit] at low
  rcases period_cases t.rate with p | p | p | p
  all_goals
    rw [p] at low edge
    omega

private theorem tick_of_pending (pending : t.reload = some k) (low : t.input = false) (short : k < 8)
    (early : j ≤ k) :
    t.tick j =
      ({t with divider := t.divider + UInt16.ofNat j, reload := some (k - j)},false) := by
  induction j with
  | zero => simp [← pending]
  | succ j ih =>
    have still := still_of_low low (Nat.lt_trans early short)
    have left : k - j = k - (j + 1) + 1 := by omega
    rw [tick_add,tick_one,ih (Nat.le_of_succ_le early),clock_of_still (still _),advanceReload,left]
    simp only [divider_succ,Bool.or_self]

private theorem reloadsAt_of_pending (pending : t.reload = some k) (clear : t.tima = 0)
    (low : t.input = false) (short : k < 8) : t.ReloadsAt (k + 1) := by
  apply reloadsAt_of_tick
  · intro j early
    rw [tick_of_pending pending low short (Nat.le_of_lt_succ early)]
    exact ⟨clear,rfl⟩
  · have still := still_of_low low short
    rw [tick_add,tick_one,tick_of_pending pending low short (Nat.le_refl k),clock_of_still (still _)]
    simp [advanceReload,clear]

private theorem falls_of_overflow (idle : t.reload = none) (overflows : .overflow ∈ t.occurs x) :
    t.falls x ∧ t.tima = 0xFF := by
  have wrapped : (∀ v, x ≠ .tima v) ∧ t.tima = 0xFF ∧ (t.feed x).tima = 0 := by
    cases x with
    | tima v => simp [occurs] at overflows
    | div | tma | tac | clock => simpa [occurs] using overflows
  obtain ⟨unwritten,full,clear⟩ := wrapped
  refine ⟨?_,full⟩
  -- Without a count TIMA would keep its value, as no reload can be under way.
  by_contra still
  have counts := counted_of_not_falls (Bool.eq_false_iff.mpr still)
  have staged : (t.stage x).tima = t.tima ∧ (t.stage x).reload = none := by
    cases x with
    | tima v => exact absurd rfl (unwritten v)
    | div | tma | tac | clock => exact ⟨rfl,idle⟩
  have kept : (t.feed x).tima = t.tima := by
    by_cases timed : x = .clock
    · subst timed
      rw [feed,clock_eq,counts,advanceReload,staged.2,staged.1]
    · rw [feed_write t timed,counts,staged.1]
  rw [kept,full] at clear
  cases clear

/-- What an overflow leaves behind. Only a clock goes on to count the reload down at once. -/
private theorem feed_of_overflow (idle : t.reload = none) (overflows : .overflow ∈ t.occurs x) :
    (t.feed x).reload = some (if x = .clock then 2 else 3) ∧ (t.feed x).tima = 0 ∧
      (t.feed x).input = false := by
  obtain ⟨falls,full⟩ := falls_of_overflow idle overflows
  have low : (t.counted x).input = false := by
    rw [counted,falls,if_pos rfl,(increment_divider _).2]
    exact low_of_falls falls
  have counts : (t.counted x).reload = some 3 ∧ (t.counted x).tima = 0 := by
    rw [counted,falls,if_pos rfl]
    cases x with
    | tima v => simp [falls_tima] at falls
    | tma v => simp [falls_tma] at falls
    | div | tac | clock => simp [increment,stage,full]
  by_cases timed : x = .clock
  · subst timed
    rw [feed,clock_eq,(advanceReload_divider _).2]
    simp [advanceReload,counts,low]
  · rw [feed_write t timed,if_neg timed]
    exact ⟨counts.1,counts.2,low⟩

/-- After an overflow with no reload pending before it, and with no write to the timer after it, the
reload comes after a whole machine cycle exactly if a write made TIMA count; after an edge of the
divider it comes one clock too soon. -/
theorem reloadsAt_four_iff (idle : t.reload = none) (overflows : .overflow ∈ t.occurs x) :
    ((t.feed x).ReloadsAt 4 ↔ x ≠ .clock) ∧ (x = .clock → (t.feed x).ReloadsAt 3) := by
  obtain ⟨pending,clear,low⟩ := feed_of_overflow idle overflows
  by_cases timed : x = .clock
  · rw [if_pos timed] at pending
    have early := reloadsAt_of_pending pending clear low (by decide)
    refine ⟨iff_of_false (fun whole => ?_) (fun other => other timed),fun _ => early⟩
    have told : ((t.feed x).tick 3).2 := early.tells [] 3 (by decide) (by decide)
    exact (whole.waits [3] (by decide)).2 (by simp [reports,told])
  · rw [if_neg timed] at pending
    exact ⟨iff_of_true (reloadsAt_of_pending pending clear low (by decide)) timed,
      fun same => absurd same timed⟩

/-- Full, one clock before an edge of the divider. -/
def brimming : Timer := {divider := 15, tima := 0xFF, tma := 0xAB, enabled := true, rate := twoBits 1}

theorem reloadsAt_four_iff_brimming : brimming.reload = none ∧
    .overflow ∈ brimming.occurs .clock ∧ (brimming.feed .clock).ReloadsAt 3 ∧
    .overflow ∈ brimming.occurs .div ∧ (brimming.feed .div).ReloadsAt 4 := by
  have counted : .overflow ∈ brimming.occurs .clock := by decide
  have written : .overflow ∈ brimming.occurs .div := by decide
  exact ⟨rfl,counted,(reloadsAt_four_iff rfl counted).2 rfl,written,
    (reloadsAt_four_iff rfl written).1.mpr nofun⟩

theorem not_forall_reloadsAt_four : ¬∀ (t : Timer) (x : Signal),
    t.reload = none → .overflow ∈ t.occurs x → (t.feed x).ReloadsAt 4 := by
  intro held
  have whole := held brimming .clock rfl (by decide)
  have clear := (whole.waits [3] (by decide)).1
  have loaded : ((brimming.feed .clock).ticks [3]).tima = 0xAB := by decide
  cases clear.symm.trans loaded

end Sm83.Timer
