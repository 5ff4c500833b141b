import Sm83.Proofs.Timer.Occurrences

/-!
Where a reload stands between the clocks of a machine cycle. Neither the clocks of a step nor its
writes, if one at most is to DIV or TAC, make TIMA count while a reload is pending
(`Phase.clocks`, `Settled.writes`), and the clocks bring the reload about
(`Phase.occurrences_ne_nil`).
-/
namespace Sm83.Timer
variable {t : Timer} {x : Signal}

/-- The timer `j` clocks after a multiple of four. A pending reload was set up by then, or by a
write since, and in the latter case the input is low. -/
structure Phase (j : Nat) (t : Timer) : Prop where
  divider : t.divider.toNat % 4 = j
  reload : ∀ n, t.reload = some n → t.tima = 0 ∧ (n + j = 2 ∨ n + j = 3 ∧ t.input = false)

/-- The timer between two steps: a pending reload is the work of the latest clock. -/
structure Settled (t : Timer) : Prop where
  divider : t.divider.toNat % 4 = 0
  reload : ∀ n, t.reload = some n → n = 2 ∧ t.tima = 0 ∧ t.input = false

theorem Settled.phase (settled : t.Settled) : t.Phase 0 where
  divider := settled.divider
  reload n pending := ⟨(settled.reload n pending).2.1,.inl (settled.reload n pending).1⟩

theorem Phase.calm {j : Nat} (phase : t.Phase j) : t.Calm := by
  intro pending
  obtain ⟨n,reload⟩ := Option.isSome_iff_exists.mp pending
  exact (phase.reload n reload).1

/-- TIMA is driven by a bit that only every fourth clock can change. -/
private theorem input_stage_clock (early : t.divider.toNat % 4 < 3) :
    (t.stage .clock).input = t.input ∧
      (t.stage .clock).divider.toNat % 4 = t.divider.toNat % 4 + 1 := by
  have bound := t.divider.toNat_lt
  have next : (t.divider + 1).toNat = t.divider.toNat + 1 := by
    rw [UInt16.toNat_add]
    exact Nat.mod_eq_of_lt (by simp; omega)
  have high (k : Nat) : (t.divider.toNat + 1).testBit (k + 2) = t.divider.toNat.testBit (k + 2) := by
    have same : (t.divider.toNat + 1) / 2 ^ 2 = t.divider.toNat / 2 ^ 2 := by omega
    rw [← Nat.testBit_div_two_pow,← Nat.testBit_div_two_pow,same]
  have above : ∀ r, selectedBit r = selectedBit r - 2 + 2 := by decide
  refine ⟨?_,by simp only [stage,next]; omega⟩
  simp only [input,stage,next]
  rw [above,high]

theorem increment_divider (t : Timer) : t.increment.divider = t.divider ∧
    t.increment.input = t.input := by
  unfold increment
  split <;> exact ⟨rfl,rfl⟩

private theorem increment_pending {n : Nat} (idle : t.reload = none)
    (pending : t.increment.reload = some n) : n = 3 ∧ t.increment.tima = 0 := by
  by_cases full : t.tima = 0xFF
  · simp only [increment,full,if_true,Option.some.injEq] at pending ⊢
    exact ⟨pending.symm,trivial⟩
  · simp [increment,full,idle] at pending

theorem low_of_falls (falls : t.falls x) : (t.stage x).input = false := by
  simp only [Timer.falls,Bool.and_eq_true,Bool.not_eq_true'] at falls
  exact falls.2

theorem advanceReload_divider (t : Timer) : t.advanceReload.1.divider = t.divider ∧
    t.advanceReload.1.input = t.input := by
  unfold advanceReload
  split
  · exact ⟨rfl,rfl⟩
  · split <;> exact ⟨rfl,rfl⟩
  · exact ⟨rfl,rfl⟩

private theorem advanceReload_pending {n : Nat} (pending : t.advanceReload.1.reload = some n) :
    t.reload = some (n + 1) ∧ t.advanceReload.1.tima = t.tima := by
  unfold advanceReload at *
  split at pending
  · rename_i idle
    simp [idle] at pending
  · split at pending <;> cases pending
  · rename_i reload
    cases pending
    exact ⟨reload,rfl⟩

theorem Phase.clock {j : Nat} (phase : t.Phase j) (early : j < 3) :
    t.falls .clock = false ∧ (t.feed .clock).Phase (j + 1) := by
  obtain ⟨same,next⟩ := input_stage_clock (t := t) (by rw [phase.divider]; exact early)
  have still : t.falls .clock = false := by
    rw [falls,same]
    exact Bool.and_not_self _
  refine ⟨still,?_⟩
  rw [feed,clock_eq,counted_of_not_falls still]
  obtain ⟨divider,input⟩ := (t.stage .clock).advanceReload_divider
  refine ⟨by rw [divider,next,phase.divider],?_⟩
  intro n pending
  obtain ⟨before,tima⟩ := advanceReload_pending pending
  obtain ⟨clear,due⟩ := phase.reload _ before
  rw [tima,input,same]
  refine ⟨clear,?_⟩
  rcases due with due | ⟨due,low⟩
  · exact .inl (by omega)
  · exact .inr ⟨by omega,low⟩

theorem counted_divider (t : Timer) (x : Signal) : (t.counted x).divider = (t.stage x).divider := by
  unfold counted
  split
  · exact (increment_divider _).1
  · rfl

private theorem counted_pending {n : Nat} (undisturbed : t.reload.isSome → t.falls x = false)
    (same : (t.stage x).reload = t.reload) (pending : (t.counted x).reload = some n) :
    t.falls x = false ∧ t.reload = some n ∨
      n = 3 ∧ (t.counted x).tima = 0 ∧ (t.counted x).input = false := by
  cases falls : t.falls x with
  | true =>
    have idle := idle_of_falls undisturbed falls
    have counts : t.counted x = (t.stage x).increment := by rw [counted,falls]; rfl
    rw [counts] at pending ⊢
    obtain ⟨fresh,clear⟩ := increment_pending (same.trans idle) pending
    exact .inr ⟨fresh,clear,(increment_divider _).2.trans (low_of_falls falls)⟩
  | false =>
    rw [counted_of_not_falls falls,same] at pending
    exact .inl ⟨rfl,pending⟩

theorem Phase.clock_last (phase : t.Phase 3) :
    (t.reload.isSome → t.falls .clock = false) ∧ (t.feed .clock).Settled := by
  have undisturbed : t.reload.isSome → t.falls .clock = false := by
    intro pending
    obtain ⟨n,reload⟩ := Option.isSome_iff_exists.mp pending
    obtain ⟨-,due | ⟨-,low⟩⟩ := phase.reload n reload
    · omega
    · rw [falls,low]
      rfl
  refine ⟨undisturbed,?_⟩
  rw [feed,clock_eq]
  obtain ⟨divider,input⟩ := (t.counted .clock).advanceReload_divider
  constructor
  · have third := phase.divider
    rw [divider,counted_divider,stage,UInt16.toNat_add]
    simp
    omega
  · intro n pending
    obtain ⟨before,tima⟩ := advanceReload_pending pending
    rw [tima,input]
    rcases counted_pending undisturbed rfl before with ⟨-,waiting⟩ | ⟨fresh,clear,low⟩
    · obtain ⟨-,due | ⟨due,-⟩⟩ := phase.reload _ waiting
      · omega
      · omega
    · exact ⟨by omega,clear,low⟩

theorem Phase.four_clocks (phase : t.Phase 0) : t.Undisturbed (List.replicate 4 .clock) ∧
    ((List.replicate 4 Signal.clock).foldl feed t).Settled := by
  obtain ⟨first,phase⟩ := phase.clock (by decide)
  obtain ⟨second,phase⟩ := phase.clock (by decide)
  obtain ⟨third,phase⟩ := phase.clock (by decide)
  obtain ⟨fourth,settled⟩ := phase.clock_last
  exact ⟨⟨fun _ => first,fun _ => second,fun _ => third,fourth,trivial⟩,settled⟩

theorem Phase.clocks (phase : t.Phase 0) (k : Nat) :
    t.Undisturbed (List.replicate (4 * (k + 1)) .clock) ∧
      ((List.replicate (4 * (k + 1)) Signal.clock).foldl feed t).Settled := by
  induction k generalizing t with
  | zero => exact phase.four_clocks
  | succ k ih =>
    have split : List.replicate (4 * (k + 1 + 1)) Signal.clock =
        List.replicate 4 .clock ++ List.replicate (4 * (k + 1)) .clock := by
      rw [List.replicate_append_replicate]
      congr 1
      omega
    obtain ⟨begun,settled⟩ := phase.four_clocks
    obtain ⟨rest,last⟩ := ih settled.phase
    rw [split,undisturbed_append,List.foldl_append]
    exact ⟨⟨begun,rest⟩,last⟩

theorem Phase.plain (phase : t.Phase 0) (write : x ≠ .clock) (plain : x.isEdge = false) :
    t.falls x = false ∧ (t.feed x).Phase 0 := by
  cases x with
  | div | tac => cases plain
  | clock => exact absurd rfl write
  | tima v => exact ⟨t.falls_tima v,phase.divider,fun n pending => by cases pending⟩
  | tma v => exact ⟨t.falls_tma v,phase.divider,phase.reload⟩

theorem Settled.plain (settled : t.Settled) (write : x ≠ .clock) (plain : x.isEdge = false) :
    (t.feed x).Settled := by
  cases x with
  | div | tac => cases plain
  | clock => exact absurd rfl write
  | tima v => exact ⟨settled.divider,fun n pending => by cases pending⟩
  | tma v => exact ⟨settled.divider,settled.reload⟩

theorem Settled.edge (settled : t.Settled) (edge : x.isEdge) :
    (t.reload.isSome → t.falls x = false) ∧ (t.feed x).Phase 0 := by
  have undisturbed : t.reload.isSome → t.falls x = false := by
    intro pending
    obtain ⟨n,reload⟩ := Option.isSome_iff_exists.mp pending
    rw [falls,(settled.reload n reload).2.2]
    rfl
  have write : x ≠ .clock := by
    rintro rfl
    cases edge
  have same : (t.stage x).reload = t.reload := by cases x <;> first | rfl | cases edge
  refine ⟨undisturbed,?_⟩
  rw [feed_write t write]
  constructor
  · rw [counted_divider]
    cases x with
    | div => rfl
    | tac v => exact settled.divider
    | tima | tma | clock => cases edge
  · intro n pending
    rcases counted_pending undisturbed same pending with ⟨still,waiting⟩ | ⟨fresh,clear,low⟩
    · obtain ⟨due,clear,-⟩ := settled.reload n waiting
      have kept : (t.stage x).tima = t.tima := by cases x <;> first | rfl | cases edge
      rw [counted_of_not_falls still,kept]
      exact ⟨clear,.inl due⟩
    · exact ⟨clear,.inr ⟨fresh,low⟩⟩

theorem Phase.writes (phase : t.Phase 0) {xs : List Signal} (writes : ∀ x ∈ xs, x ≠ .clock)
    (none : xs.filter Signal.isEdge = []) : t.Undisturbed xs ∧ (xs.foldl feed t).Phase 0 := by
  induction xs generalizing t with
  | nil => exact ⟨trivial,phase⟩
  | cons x xs ih =>
    obtain ⟨write,rest⟩ := List.forall_mem_cons.mp writes
    rw [List.filter_eq_nil_iff,List.forall_mem_cons] at none
    obtain ⟨still,next⟩ := phase.plain write (by simpa using none.1)
    obtain ⟨after,last⟩ := ih next rest (List.filter_eq_nil_iff.mpr none.2)
    exact ⟨⟨fun _ => still,after⟩,last⟩

theorem Settled.writes (settled : t.Settled) {xs : List Signal} (writes : ∀ x ∈ xs, x ≠ .clock)
    (once : (xs.filter Signal.isEdge).length ≤ 1) : t.Undisturbed xs ∧ (xs.foldl feed t).Phase 0 := by
  -- The timer stays settled up to the one write that counts; after it only the phase is left.
  induction xs generalizing t with
  | nil => exact ⟨trivial,settled.phase⟩
  | cons x xs ih =>
    obtain ⟨write,rest⟩ := List.forall_mem_cons.mp writes
    cases edge : x.isEdge with
    | true =>
      rw [List.filter_cons_of_pos edge,List.length_cons] at once
      have none := List.eq_nil_of_length_eq_zero (by omega : (xs.filter Signal.isEdge).length = 0)
      obtain ⟨still,next⟩ := settled.edge edge
      obtain ⟨after,last⟩ := next.writes rest none
      exact ⟨⟨still,after⟩,last⟩
    | false =>
      rw [List.filter_cons_of_neg (by simp [edge])] at once
      obtain ⟨still,-⟩ := settled.phase.plain write edge
      obtain ⟨after,last⟩ := ih (settled.plain write edge) rest once
      exact ⟨⟨fun _ => still,after⟩,last⟩

/-- A pending reload happens after as many clocks as are left, and one. -/
theorem Phase.resolved {j n : Nat} (phase : t.Phase j) (pending : t.reload = some n) :
    ((List.replicate (n + 1) Signal.clock).foldl feed t).reload = none := by
  induction n generalizing t j with
  | zero =>
    have still : t.falls .clock = false := by
      by_cases early : j < 3
      · exact (phase.clock early).1
      · obtain rfl : j = 3 := by
          have bound := phase.divider
          omega
        exact phase.clock_last.1 (by rw [pending]; rfl)
    have clear := (phase.reload 0 pending).1
    change (t.feed .clock).reload = none
    rw [feed,clock_eq,counted_of_not_falls still]
    simp [stage,advanceReload,pending,clear]
  | succ n ih =>
    have early : j < 3 := by
      obtain ⟨-,due | ⟨due,-⟩⟩ := phase.reload (n + 1) pending
      · omega
      · omega
    obtain ⟨still,next⟩ := phase.clock early
    have later : (t.feed .clock).reload = some n := by
      rw [feed,clock_eq,counted_of_not_falls still]
      simp [stage,advanceReload,pending]
    exact ih next later

theorem Phase.occurrences_ne_nil (phase : t.Phase 0) (pending : t.reload.isSome) (k : Nat) :
    t.occurrences (List.replicate (4 * (k + 1)) .clock) ≠ [] := by
  intro none
  obtain ⟨n,reload⟩ := Option.isSome_iff_exists.mp pending
  have soon : n + 1 ≤ 4 * (k + 1) := by
    obtain ⟨-,due | ⟨due,-⟩⟩ := phase.reload n reload
    · omega
    · omega
  have split : List.replicate (4 * (k + 1)) Signal.clock =
      List.replicate (n + 1) .clock ++ List.replicate (4 * (k + 1) - (n + 1)) .clock := by
    rw [List.replicate_append_replicate,Nat.add_sub_cancel' soon]
  -- With nothing in the log the reload would still be pending when it is resolved.
  have undisturbed := (phase.clocks k).1
  rw [split,occurrences_append,List.append_eq_nil_iff] at none
  rw [split,undisturbed_append] at undisturbed
  have paired := (pairing_occurrences phase.calm undisturbed.1).1
  rw [none.1,phase.resolved reload,pending] at paired
  cases paired

end Sm83.Timer
