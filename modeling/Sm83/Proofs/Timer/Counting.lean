import Mathlib.Algebra.Ring.Nat
import Sm83.Proofs.Timer.Occurrences

/-!
The timer as a clock ahead of time. While nothing is written to it, its state after any number of
clocks has a closed form (`tick_eq_ahead`): the falling edges so far tell TIMA, and the clocks since
the latest of them whether a reload is still pending. Main statement: `tima_of_ticks`.
-/
namespace Sm83.Timer
variable {t : Timer} {n : Nat}

def ticks (t : Timer) (calls : List Nat) : Timer := calls.foldl (fun t n => (t.tick n).1) t

def reports (t : Timer) : List Nat → List Bool
  | [] => []
  | n :: calls => (t.tick n).2 :: (t.tick n).1.reports calls

theorem ticks_eq (t : Timer) (calls : List Nat) : t.ticks calls = (t.tick calls.sum).1 ∧
    (true ∈ t.reports calls ↔ (t.tick calls.sum).2) := by
  induction calls generalizing t with
  | nil => simp [ticks,reports]
  | cons n calls ih =>
    obtain ⟨last,told⟩ := ih (t.tick n).1
    rw [List.sum_cons,tick_add]
    refine ⟨last,?_⟩
    simp only [reports,List.mem_cons,told,Bool.or_eq_true]
    exact or_congr_left eq_comm

theorem tick_one (t : Timer) : t.tick 1 = t.clock := by
  rw [tick_succ,tick_zero,Bool.or_false]

theorem period_cases (r : Fin 4) : period r = 16 ∨ period r = 64 ∨ period r = 256 ∨ period r = 1024 := by
  revert r
  decide

def edges (t : Timer) (n : Nat) : Nat :=
  (t.divider.toNat + n) / period t.rate - t.divider.toNat / period t.rate

/-- The clocks since the latest falling edge, `n` clocks from now. -/
def sinceEdge (t : Timer) (n : Nat) : Nat := (t.divider.toNat + n) % period t.rate

def room (t : Timer) : Nat := 256 - t.tima.toNat

/-- TIMA after `c` counts, if every reload follows its overflow at once. -/
def value (t : Timer) (c : Nat) : Nat :=
  if c < t.room then t.tima.toNat + c else t.tma.toNat + (c - t.room) % (256 - t.tma.toNat)

/-- The last of `c` counts is an overflow. -/
def Wraps (t : Timer) (c : Nat) : Prop := t.room ≤ c ∧ (c - t.room) % (256 - t.tma.toNat) = 0

instance (t : Timer) : DecidablePred t.Wraps := fun c =>
  inferInstanceAs (Decidable (t.room ≤ c ∧ (c - t.room) % (256 - t.tma.toNat) = 0))

def ahead (t : Timer) (n : Nat) : Timer :=
  if t.Wraps (t.edges n) ∧ t.sinceEdge n < 3 then
    { t with
      divider := t.divider + UInt16.ofNat n
      tima := 0
      reload := some (2 - t.sinceEdge n) }
  else
    { t with
      divider := t.divider + UInt16.ofNat n
      tima := UInt8.ofNat (t.value (t.edges n))
      reload := none }

def reloaded (t : Timer) (n : Nat) : Bool :=
  t.room < t.edges n ∨ t.room = t.edges n ∧ 3 ≤ t.sinceEdge n

private theorem edges_succ (edge : (t.divider.toNat + n + 1) % period t.rate = 0) :
    t.edges (n + 1) = t.edges n + 1 ∧ t.sinceEdge (n + 1) = 0 ∧ 3 ≤ t.sinceEdge n := by
  unfold edges sinceEdge
  rcases period_cases t.rate with p | p | p | p
  all_goals
    rw [p] at edge ⊢
    omega

private theorem edges_succ_of_not (still : (t.divider.toNat + n + 1) % period t.rate ≠ 0) :
    t.edges (n + 1) = t.edges n ∧ t.sinceEdge (n + 1) = t.sinceEdge n + 1 := by
  unfold edges sinceEdge
  rcases period_cases t.rate with p | p | p | p
  all_goals
    rw [p] at still ⊢
    omega

private theorem value_lt (t : Timer) (c : Nat) : t.value c < 256 := by
  have tima := t.tima.toNat_lt
  have tma := t.tma.toNat_lt
  have bound := Nat.mod_lt (c - t.room) (by omega : 0 < 256 - t.tma.toNat)
  unfold value room at *
  split <;> omega

private theorem succ_mod_eq_ite (a : Nat) {m : Nat} (pos : 0 < m) :
    (a + 1) % m = if a % m + 1 = m then 0 else a % m + 1 := by
  have bound := Nat.mod_lt a pos
  have split : a + 1 = a % m + 1 + m * (a / m) := by
    have := Nat.mod_add_div a m
    omega
  rw [split,Nat.add_mul_mod_self_left]
  by_cases full : a % m + 1 = m
  · simp [full]
  · rw [if_neg full]
    exact Nat.mod_eq_of_lt (by omega)

private theorem value_succ (t : Timer) (c : Nat) :
    (t.Wraps (c + 1) ↔ t.value c = 255) ∧ (t.value c ≠ 255 → t.value (c + 1) = t.value c + 1) := by
  have tima := t.tima.toNat_lt
  have tma := t.tma.toNat_lt
  have size : t.room = 256 - t.tima.toNat := rfl
  by_cases early : c < t.room
  · have here : t.value c = t.tima.toNat + c := if_pos early
    rw [here]
    by_cases full : c + 1 = t.room
    · refine ⟨iff_of_true ⟨Nat.le_of_eq full.symm,by simp [full]⟩ (by omega),?_⟩
      omega
    · have next : t.value (c + 1) = t.tima.toNat + (c + 1) := if_pos (by omega)
      refine ⟨iff_of_false (fun wraps => ?_) (by omega),fun _ => next⟩
      have := wraps.1
      omega
  · have here : t.value c = t.tma.toNat + (c - t.room) % (256 - t.tma.toNat) := if_neg early
    have next : t.value (c + 1) = t.tma.toNat + (c + 1 - t.room) % (256 - t.tma.toNat) :=
      if_neg (by omega)
    have later : c + 1 - t.room = c - t.room + 1 := by omega
    have pos : 0 < 256 - t.tma.toNat := by omega
    have bound := Nat.mod_lt (c - t.room) pos
    rw [Wraps,here,next,later,succ_mod_eq_ite _ pos]
    split <;> omega

/-- The selected bit is high in the second half of every period. -/
theorem testBit_selectedBit (n : Nat) (r : Fin 4) :
    n.testBit (selectedBit r) ↔ period r / 2 ≤ n % period r := by
  rw [Nat.testBit_eq_decide_div_mod_eq,decide_eq_true_eq]
  match r with
  | 0 | 1 | 2 | 3 =>
    simp only [selectedBit,period,Nat.reducePow]
    omega

theorem falls_clock_iff (on : t.enabled) :
    t.falls .clock ↔ (t.divider.toNat + 1) % period t.rate = 0 := by
  have next : (t.divider + 1).toNat = (t.divider.toNat + 1) % 0x10000 := UInt16.toNat_add _ _
  simp only [falls,input,stage,on,Bool.true_and,next,Bool.and_eq_true,Bool.not_eq_true',
    ← Bool.not_eq_true,testBit_selectedBit]
  rcases period_cases t.rate with p | p | p | p
  all_goals
    rw [p]
    omega

theorem divider_after (t : Timer) (n : Nat) :
    (t.divider + UInt16.ofNat n).toNat = (t.divider.toNat + n) % 0x10000 := by
  rw [UInt16.toNat_add,UInt16.toNat_ofNat']
  exact Nat.add_mod_mod _ _ _

theorem divider_succ (t : Timer) (n : Nat) :
    t.divider + UInt16.ofNat n + 1 = t.divider + UInt16.ofNat (n + 1) := by
  rw [UInt16.ofNat_add,UInt16.add_assoc]
  rfl

private theorem ahead_setting (t : Timer) (n : Nat) : (t.ahead n).divider = t.divider + UInt16.ofNat n ∧
    (t.ahead n).enabled = t.enabled ∧ (t.ahead n).rate = t.rate := by
  unfold ahead
  split <;> exact ⟨rfl,rfl,rfl⟩

private theorem falls_ahead_iff (on : t.enabled) (n : Nat) :
    (t.ahead n).falls .clock ↔ (t.divider.toNat + n + 1) % period t.rate = 0 := by
  obtain ⟨divider,enabled,rate⟩ := t.ahead_setting n
  rw [falls_clock_iff (enabled.trans on),rate,divider,divider_after]
  rcases period_cases t.rate with p | p | p | p
  all_goals
    rw [p]
    omega

theorem clock_of_still (still : t.falls .clock = false) :
    t.clock = ({t with divider := t.divider + 1} : Timer).advanceReload := by
  rw [clock_eq,counted_of_not_falls still]
  rfl

theorem clock_of_falls (falls : t.falls .clock) :
    t.clock = ({t with divider := t.divider + 1} : Timer).increment.advanceReload := by
  rw [clock_eq,counted,falls]
  rfl

theorem clock_ahead_of_edge (on : t.enabled)
    (edge : (t.divider.toNat + n + 1) % period t.rate = 0) :
    (t.ahead n).clock = (t.ahead (n + 1),false) ∧ t.reloaded (n + 1) = t.reloaded n := by
  obtain ⟨counts,fresh,past⟩ := edges_succ edge
  obtain ⟨wraps,next⟩ := t.value_succ (t.edges n)
  have bound := t.value_lt (t.edges n)
  have closed : ¬(t.Wraps (t.edges n) ∧ t.sinceEdge n < 3) := fun opened => by omega
  constructor
  · rw [clock_of_falls ((falls_ahead_iff on n).mpr edge),ahead,if_neg closed,ahead,counts,fresh]
    simp only [divider_succ]
    by_cases full : t.value (t.edges n) = 255
    · rw [if_pos ⟨wraps.mpr full,by decide⟩,full]
      rfl
    · have room : UInt8.ofNat (t.value (t.edges n)) ≠ 0xFF := by
        intro same
        have := congrArg UInt8.toNat same
        rw [UInt8.toNat_ofNat',Nat.mod_eq_of_lt bound] at this
        exact full this
      rw [if_neg fun opened => full (wraps.mp opened.1),next full,UInt8.ofNat_add]
      simp only [increment,room,if_false,advanceReload]
      rfl
  · simp only [reloaded,counts,fresh]
    apply decide_eq_decide.mpr
    omega

theorem clock_ahead_of_not (on : t.enabled)
    (still : (t.divider.toNat + n + 1) % period t.rate ≠ 0) :
    (t.ahead n).clock = (t.ahead (n + 1),decide (t.Wraps (t.edges n) ∧ t.sinceEdge n = 2)) := by
  obtain ⟨counts,since⟩ := edges_succ_of_not still
  have low : (t.ahead n).falls .clock = false :=
    Bool.eq_false_iff.mpr fun falls => still ((falls_ahead_iff on n).mp falls)
  rw [clock_of_still low,ahead,ahead,counts,since]
  by_cases wraps : t.Wraps (t.edges n)
  · have loaded : t.value (t.edges n) = t.tma.toNat := by
      rw [value,if_neg (Nat.not_lt.mpr wraps.1),wraps.2,Nat.add_zero]
    obtain clocks | clocks | clocks | clocks : t.sinceEdge n = 0 ∨ t.sinceEdge n = 1 ∨
        t.sinceEdge n = 2 ∨ 3 ≤ t.sinceEdge n := by omega
    · simp [wraps,clocks,advanceReload,divider_succ]
    · simp [wraps,clocks,advanceReload,divider_succ]
    · simp [wraps,clocks,loaded,advanceReload,divider_succ]
    · have late : ¬t.sinceEdge n < 3 ∧ ¬t.sinceEdge n + 1 < 3 ∧ t.sinceEdge n ≠ 2 := by omega
      simp [late,advanceReload,divider_succ]
  · simp [wraps,advanceReload,divider_succ]

private theorem reloaded_succ_of_not (still : (t.divider.toNat + n + 1) % period t.rate ≠ 0) :
    t.reloaded (n + 1) =
      (t.reloaded n || decide (t.Wraps (t.edges n) ∧ t.sinceEdge n = 2)) := by
  obtain ⟨counts,since⟩ := edges_succ_of_not still
  simp only [reloaded,counts,since,← Bool.decide_or]
  apply decide_eq_decide.mpr
  by_cases first : t.room = t.edges n
  · have wraps : t.Wraps (t.edges n) := by
      rw [← first]
      exact ⟨Nat.le_refl _,by simp⟩
    simp only [wraps,true_and]
    omega
  · simp only [first,false_and,or_false]
    exact (or_iff_left_of_imp fun due => Nat.lt_of_le_of_ne due.1.1 first).symm

/-- The closed form of a timer that is switched on, with no reload pending. -/
theorem tick_eq_ahead (idle : t.reload = none) (on : t.enabled) (n : Nat) :
    t.tick n = (t.ahead n,t.reloaded n) := by
  induction n with
  | zero =>
    have bound := t.tima.toNat_lt
    have none : t.edges 0 = 0 := Nat.sub_self _
    have start : 0 < t.room := Nat.sub_pos_of_lt bound
    rw [tick_zero,ahead,none,if_neg fun opened => Nat.not_le.mpr start opened.1.1,value,if_pos start,
      reloaded,none,← idle]
    simp [Nat.ne_of_gt start]
  | succ n ih =>
    rw [tick_add,tick_one,ih]
    by_cases edge : (t.divider.toNat + n + 1) % period t.rate = 0
    · obtain ⟨clock,same⟩ := clock_ahead_of_edge on edge
      rw [clock,same,Bool.or_false]
    · rw [clock_ahead_of_not on edge,reloaded_succ_of_not edge]

private theorem tick_of_disabled (idle : t.reload = none) (off : t.enabled = false) (n : Nat) :
    t.tick n = ({t with divider := t.divider + UInt16.ofNat n},false) := by
  rw [tick,if_pos]
  simp [isQuiet,idle,off]

private theorem toNat_tima_ahead (t : Timer) (n : Nat) : (t.ahead n).tima.toNat =
    if t.Wraps (t.edges n) ∧ t.sinceEdge n < 3 then 0 else t.value (t.edges n) := by
  unfold ahead
  split
  · rfl
  · exact Nat.mod_eq_of_lt (t.value_lt _)

/-- At the end of a machine cycle a reload is pending only if TIMA has counted in its last clock. -/
private theorem sinceEdge_of_aligned (phase : 4 ∣ t.divider.toNat) (cycles : 4 ∣ n) :
    t.sinceEdge n < 3 ↔ period t.rate ∣ t.divider.toNat + n := by
  rw [Nat.dvd_iff_mod_eq_zero,sinceEdge]
  rcases period_cases t.rate with p | p | p | p
  all_goals
    rw [p]
    omega

def countdown (t : Timer) : Nat := period t.rate * t.room - t.divider.toNat % period t.rate

theorem countdown_aligned (phase : 4 ∣ t.divider.toNat) : 4 ∣ t.countdown := by
  unfold countdown
  rcases period_cases t.rate with p | p | p | p
  all_goals
    rw [p]
    omega

theorem reloaded_iff (t : Timer) (n : Nat) : t.reloaded n ↔ t.countdown + 3 ≤ n := by
  have start : 0 < t.room := Nat.sub_pos_of_lt t.tima.toNat_lt
  simp only [reloaded,decide_eq_true_eq]
  unfold countdown edges sinceEdge
  rcases period_cases t.rate with p | p | p | p
  all_goals
    rw [p]
    omega

theorem tima_after_countdown (t : Timer) : (t.ahead (t.countdown + 4)).tima = t.tma := by
  have start : 0 < t.room := Nat.sub_pos_of_lt t.tima.toNat_lt
  have latest : t.edges (t.countdown + 4) = t.room ∧ t.sinceEdge (t.countdown + 4) = 4 := by
    unfold countdown edges sinceEdge
    rcases period_cases t.rate with p | p | p | p
    all_goals
      rw [p]
      omega
  have first : t.value t.room = t.tma.toNat := by
    rw [value,if_neg (Nat.lt_irrefl _),Nat.sub_self,Nat.zero_mod,Nat.add_zero]
  rw [ahead,latest.1,latest.2,if_neg fun opened => by omega,first]
  exact UInt8.ofNat_toNat

/-- What `n` clocks make of a timer to which nothing is written, however they are split into calls.
Switched on, TIMA counts once in every period of the divider. From an overflow on it reads 0 for a
machine cycle, and then starts again from TMA; a reload is told of exactly if there has been one.
Switched off, TIMA counts nothing. -/
theorem tima_of_ticks (idle : t.reload = none) (calls : List Nat) :
    let n := calls.sum
    let d := t.divider.toNat
    let u := t.ticks calls
    u.divider.toNat = (d + n) % 0x10000 ∧
    (t.enabled → 4 ∣ d → 4 ∣ n →
      let p := period t.rate
      let counts := (d + n) / p - d / p
      let room := 256 - t.tima.toNat
      let more := counts - room
      let past := more % (256 - t.tma.toNat)
      (counts < room → u.tima.toNat = t.tima.toNat + counts ∧ true ∉ t.reports calls) ∧
      (room ≤ counts →
        u.tima.toNat = (if past = 0 ∧ p ∣ d + n then 0 else t.tma.toNat + past) ∧
        (true ∈ t.reports calls ↔ 1 ≤ more ∨ ¬p ∣ d + n))) ∧
    (t.enabled = false → u.tima = t.tima ∧ true ∉ t.reports calls) := by
  intro n d u
  obtain ⟨last,told⟩ := t.ticks_eq calls
  change u = (t.tick n).1 at last
  cases on : t.enabled with
  | false =>
    rw [tick_of_disabled idle on] at last told
    rw [last,told]
    exact ⟨t.divider_after n,nofun,fun _ => ⟨rfl,Bool.false_ne_true⟩⟩
  | true =>
    rw [tick_eq_ahead idle on] at last told
    change true ∈ t.reports calls ↔ t.reloaded n at told
    rw [last,told,toNat_tima_ahead,(t.ahead_setting n).1,divider_after]
    refine ⟨rfl,?_,nofun⟩
    intro _ phase cycles p counts room more past
    have edge : t.sinceEdge n < 3 ↔ p ∣ d + n := sinceEdge_of_aligned phase cycles
    constructor
    · intro few
      have unwrapped : ¬(t.Wraps counts ∧ t.sinceEdge n < 3) := fun opened =>
        Nat.not_le.mpr few opened.1.1
      refine ⟨(if_neg unwrapped).trans (if_pos few),?_⟩
      simp only [reloaded,decide_eq_true_eq]
      change ¬(room < counts ∨ room = counts ∧ _)
      omega
    · intro many
      have wraps : t.Wraps counts ↔ past = 0 := and_iff_right many
      have value : t.value counts = t.tma.toNat + past := if_neg (Nat.not_lt.mpr many)
      constructor
      · change (if t.Wraps counts ∧ t.sinceEdge n < 3 then 0 else t.value counts) = _
        simp only [wraps,edge,value]
      · rw [← edge]
        simp only [reloaded,decide_eq_true_eq]
        change room < counts ∨ room = counts ∧ _ ↔ _
        omega

/-- Four clocks before the divider starts over, and every count is an overflow. -/
def hurried : Timer :=
  {divider := 0xFFFC, tima := 0xFF, tma := 0xFF, enabled := true, rate := twoBits 1}

theorem tima_of_ticks_hurried : hurried.reload = none ∧
    (hurried.ticks [3,14,3]).divider.toNat = 0x10 ∧ (hurried.ticks [3,14,3]).tima.toNat = 0 ∧
    true ∈ hurried.reports [3,14,3] ∧ (hurried.ticks [3,18,3]).tima.toNat = 0xFF := by
  obtain ⟨divider,on,-⟩ := tima_of_ticks (t := hurried) rfl [3,14,3]
  obtain ⟨tima,told⟩ := (on rfl (by decide) (by decide)).2 (by decide)
  obtain ⟨-,on',-⟩ := tima_of_ticks (t := hurried) rfl [3,18,3]
  obtain ⟨tima',-⟩ := (on' rfl (by decide) (by decide)).2 (by decide)
  exact ⟨rfl,divider,tima,told.mpr (.inl (by decide)),tima'⟩

end Sm83.Timer
