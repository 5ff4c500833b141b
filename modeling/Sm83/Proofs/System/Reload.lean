import Sm83.Proofs.System.Step
import Sm83.Proofs.Cpu.Stores
import Sm83.Proofs.Timer.Phases

/-!
The timer in a running system. A step feeds it with the processor's writes and then with its clocks
(`step_timer`); since the processor cannot write to DIV and TAC in one step, no overflow is lost
(`reloads_of_run`).
-/
namespace Sm83

def Signal.ofAccess? (x : Access) : Option Signal :=
  match x.kind,x.addr with
  | .write,Address.div => some .div
  | .write,Address.tima => some (.tima x.data)
  | .write,Address.tma => some (.tma x.data)
  | .write,Address.tac => some (.tac x.data)
  | _,_ => none

theorem SystemBus.tick_eq (b : SystemBus) (n : Nat) : b.tick n = { b with
    timer := (b.timer.tick n).1
    interruptFlags :=
      if (b.timer.tick n).2 then b.interruptFlags ||| timerInterrupt else b.interruptFlags } := by
  simp only [tick]
  split <;> rfl

namespace System

/-- The clocks for which the peripherals run in a step. -/
def ticks (s : System) : Nat :=
  match s.step.1 with
  | .ok n => n
  | .error _ => 0

def signals (s : System) : List Signal :=
  s.accesses.filterMap Signal.ofAccess? ++ List.replicate s.ticks .clock

def occurrences (s : System) : List Occurrence := s.bus.timer.occurrences s.signals

def after (s : System) : Nat → System
  | 0 => s
  | n + 1 => s.step.2.after n

def log (s : System) : Nat → List Occurrence
  | 0 => []
  | n + 1 => s.occurrences ++ s.step.2.log n

def Runs (s : System) (n : Nat) : Prop := ∀ k < n, (s.after k).step.1.isOk

theorem follow_timer (b : SystemBus) (x : Access) :
    (Bus.follow b x).timer = (Signal.ofAccess? x).elim b.timer b.timer.feed := by
  obtain ⟨a,v,kind⟩ := x
  cases kind with
  | read => rfl
  | write =>
    change (b.write a v).timer = _
    unfold SystemBus.write
    split
    case h_1 =>
      unfold SystemBus.writeSerialControl
      split <;> rfl
    case h_8 serial div tima tma tac flags enable =>
      have none : Signal.ofAccess? ⟨a,v,.write⟩ = none := by
        unfold Signal.ofAccess?
        split <;> simp_all
      rw [none]
      rfl
    all_goals rfl

private theorem foldl_follow_timer (b : SystemBus) (l : List Access) :
    (l.foldl Bus.follow b).timer = (l.filterMap Signal.ofAccess?).foldl Timer.feed b.timer := by
  induction l generalizing b with
  | nil => rfl
  | cons x l ih =>
    rw [List.foldl_cons,ih,follow_timer]
    cases found : Signal.ofAccess? x with
    | none => rw [List.filterMap_cons_none found]; rfl
    | some y => rw [List.filterMap_cons_some found]; rfl

private theorem tick_timer (b : SystemBus) (n : Nat) : (b.tick n).timer = (b.timer.tick n).1 := by
  rw [b.tick_eq]

theorem tick_interruptFlags (b : SystemBus) (n : Nat) : (b.tick n).interruptFlags =
    if (b.timer.tick n).2 then b.interruptFlags ||| 4 else b.interruptFlags := by
  rw [b.tick_eq]
  rfl

theorem tick_zero (b : SystemBus) : b.tick 0 = b := by
  simp [SystemBus.tick]

theorem step_bus (s : System) : s.step.2.bus = (act s.toMachine).2.bus.tick s.ticks := by
  simp only [ticks,step]
  cases act s.toMachine with
  | mk result m =>
    cases result with
    | error f => exact (tick_zero m.bus).symm
    | ok n => rfl

private theorem granted_timer (s : System) : s.granted.timer = s.bus.timer := by
  rw [granted]
  split <;> rfl

private theorem act_timer (s : System) : (act s.toMachine).2.bus.timer =
    (s.accesses.filterMap Signal.ofAccess?).foldl Timer.feed s.bus.timer := by
  rw [act_bus,foldl_follow_timer,granted_timer]

theorem step_timer (s : System) : s.step.2.bus.timer = s.signals.foldl Timer.feed s.bus.timer := by
  rw [step_bus,tick_timer,Timer.tick_eq,act_timer,signals,List.foldl_append]

variable {s : System}

theorem stores_accesses (s : System) : Access.Stores s.accesses := by
  obtain ⟨result,t,-,turn⟩ := s.exists_turn
  cases turn with
  | entered line accepted made =>
    rw [made,Machine.pushes,← UInt16.sub_one_sub_one]
    exact Exec.stores_push _ _ _
  | failed refused course made | passed refused course made =>
    rw [made]
    exact course.stores

private theorem addr_of_isEdge {x : Access} {y : Signal} (found : Signal.ofAccess? x = some y)
    (edge : y.isEdge) : x.addr = Address.div ∨ x.addr = Address.tac := by
  unfold Signal.ofAccess? at found
  split at found
  case h_1 addr => exact .inl addr
  case h_4 addr => exact .inr addr
  all_goals cases found <;> cases edge

theorem ne_clock_of_ofAccess {x : Access} {y : Signal} (found : Signal.ofAccess? x = some y) :
    y ≠ .clock := by
  rintro rfl
  unfold Signal.ofAccess? at found
  split at found <;> cases found

private theorem not_beside_of_isEdge {x y : Access} {u v : Signal} (first : Signal.ofAccess? x = some u)
    (second : Signal.ofAccess? y = some v) (edges : u.isEdge ∧ v.isEdge) :
    ¬(y.addr = x.addr + 1 ∨ x.addr = y.addr + 1) := by
  have place := addr_of_isEdge first edges.1
  have place' := addr_of_isEdge second edges.2
  rcases place with place | place <;> rcases place' with place' | place' <;>
    rw [place,place'] <;> decide

private theorem length_edges_le (s : System) :
    ((s.accesses.filterMap Signal.ofAccess?).filter Signal.isEdge).length ≤ 1 := by
  have writes : s.accesses.filterMap Signal.ofAccess? =
      (s.accesses.filter Access.isWrite).filterMap Signal.ofAccess? := by
    rw [List.filterMap_filter]
    congr 1
    funext x
    obtain ⟨a,v,kind⟩ := x
    cases kind <;> rfl
  rw [writes]
  rcases s.stores_accesses with few | ⟨x,y,two,beside⟩
  · exact Nat.le_trans (List.length_filter_le _ _) (Nat.le_trans (List.length_filterMap_le _ _) few)
  rw [two]
  cases first : Signal.ofAccess? x with
  | none =>
    rw [List.filterMap_cons_none first]
    exact Nat.le_trans (List.length_filter_le _ _) (List.length_filterMap_le _ [y])
  | some u =>
    cases second : Signal.ofAccess? y with
    | none =>
      rw [List.filterMap_cons_some first,List.filterMap_cons_none second]
      exact List.length_filter_le _ [u]
    | some v =>
      have apart : ¬(u.isEdge ∧ v.isEdge) := fun edges => not_beside_of_isEdge first second edges beside
      rw [List.filterMap_cons_some first,List.filterMap_cons_some second,List.filterMap_nil]
      cases edge : u.isEdge <;> cases edge' : v.isEdge <;> simp_all

theorem exists_ticks (taken : s.step.1.isOk) : ∃ k, s.ticks = 4 * (k + 1) := by
  obtain ⟨result,t,step,turn⟩ := s.exists_turn
  rw [ticks,step]
  rw [step] at taken
  cases turn with
  | entered => exact ⟨4,rfl⟩
  | failed => cases taken
  | passed refused course =>
    obtain ⟨k,clocks⟩ := course.clocks
    refine ⟨k - 1,?_⟩
    simp only [elapsed]
    split <;> omega

theorem signals_writes (s : System) : ∀ x ∈ s.accesses.filterMap Signal.ofAccess?, x ≠ .clock := by
  intro x member
  obtain ⟨access,-,found⟩ := List.mem_filterMap.mp member
  exact ne_clock_of_ofAccess found

theorem settled_step (settled : s.bus.timer.Settled) (taken : s.step.1.isOk) :
    s.bus.timer.Undisturbed s.signals ∧ s.step.2.bus.timer.Settled := by
  obtain ⟨k,clocks⟩ := exists_ticks taken
  obtain ⟨written,phase⟩ := settled.writes s.signals_writes s.length_edges_le
  obtain ⟨ticked,last⟩ := phase.clocks k
  rw [step_timer,signals,clocks,Timer.undisturbed_append,List.foldl_append]
  exact ⟨⟨written,ticked⟩,last⟩

theorem pairing_step (settled : s.bus.timer.Settled) (taken : s.step.1.isOk) :
    Occurrence.pairing s.bus.timer.reload.isSome s.occurrences =
      some s.step.2.bus.timer.reload.isSome := by
  rw [step_timer]
  exact (Timer.pairing_occurrences settled.phase.calm (settled_step settled taken).1).1

theorem occurrences_ne_nil (settled : s.bus.timer.Settled) (taken : s.step.1.isOk)
    (pending : s.bus.timer.reload.isSome) : s.occurrences ≠ [] := by
  intro none
  obtain ⟨k,clocks⟩ := exists_ticks taken
  obtain ⟨written,phase⟩ := settled.writes s.signals_writes s.length_edges_le
  rw [occurrences,signals,clocks,Timer.occurrences_append,List.append_eq_nil_iff] at none
  have paired := (Timer.pairing_occurrences settled.phase.calm written).1
  rw [none.1,pending] at paired
  exact phase.occurrences_ne_nil (Option.some.inj paired).symm k none.2

theorem requests_step (s : System) : s.step.2.bus.interruptFlags =
    if s.occurrences.any Occurrence.isReloaded then (act s.toMachine).2.bus.interruptFlags ||| 4
    else (act s.toMachine).2.bus.interruptFlags := by
  have quiet : (s.bus.timer.occurrences (s.accesses.filterMap Signal.ofAccess?)).any
      Occurrence.isReloaded = false := Timer.not_isReloaded_of_writes s.signals_writes
  rw [step_bus,tick_interruptFlags,Timer.tick_eq,act_timer,occurrences,signals,
    Timer.occurrences_append,List.any_append,quiet,Bool.false_or]

private theorem runs_succ {n : Nat} :
    s.Runs (n + 1) ↔ s.step.1.isOk ∧ s.step.2.Runs n := by
  constructor
  · intro runs
    exact ⟨runs 0 (Nat.zero_lt_succ n),fun k early => runs (k + 1) (Nat.succ_lt_succ early)⟩
  · rintro ⟨first,rest⟩ k early
    cases k with
    | zero => exact first
    | succ k => exact rest k (Nat.lt_of_succ_lt_succ early)

theorem settled_after {n : Nat} (settled : s.bus.timer.Settled) (runs : s.Runs n) :
    (s.after n).bus.timer.Settled := by
  induction n generalizing s with
  | zero => exact settled
  | succ n ih =>
    obtain ⟨taken,rest⟩ := runs_succ.mp runs
    exact ih (settled_step settled taken).2 rest

theorem pairing_log {n : Nat} (settled : s.bus.timer.Settled) (runs : s.Runs n) :
    Occurrence.pairing s.bus.timer.reload.isSome (s.log n) =
      some (s.after n).bus.timer.reload.isSome := by
  induction n generalizing s with
  | zero => rfl
  | succ n ih =>
    obtain ⟨taken,rest⟩ := runs_succ.mp runs
    rw [log,Occurrence.pairing_append,pairing_step settled taken]
    exact ih (settled_step settled taken).2 rest

theorem after_succ (s : System) (n : Nat) : s.after (n + 1) = (s.after n).step.2 := by
  induction n generalizing s with
  | zero => rfl
  | succ n ih => exact ih s.step.2

/-- A system that is switched on, with any program in its memory. -/
def loaded (cpu : Cpu) (memory : Memory) : System := {cpu := cpu, bus := {memory := memory}}

private theorem settled_initial : Timer.initial.Settled :=
  ⟨rfl,fun n pending => by cases pending⟩

theorem exists_answer (settled : s.bus.timer.Settled) (runs : s.Runs 2)
    {before rest : List Occurrence} (found : s.occurrences = before ++ .overflow :: rest) :
    ∃ x later, rest ++ s.step.2.occurrences = x :: later ∧ x ≠ .overflow := by
  have paired := pairing_step settled (runs 0 (by decide))
  rw [found] at paired
  rcases Occurrence.next_of_overflow paired with ⟨rfl,pending⟩ | ⟨x,more,rfl,other⟩
  · -- The overflow is the last thing in its step, and the next one cannot pass without a word.
    have next := (settled_step settled (runs 0 (by decide))).2
    have some := occurrences_ne_nil next (runs 1 (by decide)) pending
    have paired := pairing_step next (runs 1 (by decide))
    obtain ⟨x,later,begun⟩ := List.exists_cons_of_ne_nil some
    refine ⟨x,later,begun,?_⟩
    rintro rfl
    rw [begun,pending] at paired
    cases paired
  · exact ⟨x,more ++ s.step.2.occurrences,rfl,other⟩

private theorem answer_cases {x : Occurrence} {before rest later : List Occurrence}
    (found : s.occurrences = before ++ .overflow :: rest)
    (answered : rest ++ s.step.2.occurrences = x :: later) (other : x ≠ .overflow) :
    x = .written ∨ ∃ v, x = .reloaded v v := by
  cases x with
  | overflow => exact absurd rfl other
  | written => exact .inl rfl
  | reloaded v w =>
    have member : .reloaded v w ∈ rest ++ s.step.2.occurrences := by
      rw [answered]
      exact List.mem_cons_self
    have same : v = w := by
      rcases List.mem_append.mp member with now | next
      · have inside : .reloaded v w ∈ s.bus.timer.occurrences s.signals := by
          change _ ∈ s.occurrences
          rw [found]
          simp [now]
        exact Timer.eq_of_reloaded inside
      · exact Timer.eq_of_reloaded next
    exact .inr ⟨v,by rw [same]⟩

private theorem eq_of_reloaded_log {n : Nat} {v w : UInt8} (found : .reloaded v w ∈ s.log n) : v = w := by
  induction n generalizing s with
  | zero => cases found
  | succ n ih =>
    rcases List.mem_append.mp found with now | later
    · exact Timer.eq_of_reloaded now
    · exact ih later

private theorem runs_after {k m n : Nat} (runs : s.Runs n) (early : k + m ≤ n) : (s.after k).Runs m := by
  induction k generalizing s n with
  | zero =>
    intro j small
    exact runs j (by omega)
  | succ k ih =>
    cases n with
    | zero => omega
    | succ n => exact ih (runs_succ.mp runs).2 (by omega)

theorem or_four_and_four (f : UInt8) : (f ||| 4) &&& 4 = 4 := by
  revert f
  decide +kernel

/-- In a run of a system every overflow of TIMA is answered, in the same or the next step and before
the next overflow, by one reload with TMA or by a write to TIMA; and the timer requests its
interrupt in the steps with a reload, and in no other. -/
theorem reloads_of_run (cpu : Cpu) (memory : Memory) (n : Nat) (runs : (loaded cpu memory).Runs n) :
    let s := (loaded cpu memory).after
    (∀ k ≤ n, (s k).bus.timer.reload.isSome → (s k).bus.timer.tima = 0) ∧
    (∀ k, k + 1 < n → ∀ before rest, (s k).occurrences = before ++ .overflow :: rest →
      ∃ x later, rest ++ (s (k + 1)).occurrences = x :: later ∧
        (x = .written ∨ ∃ v, x = .reloaded v v)) ∧
    (∀ before v w rest, (loaded cpu memory).log n = before ++ .reloaded v w :: rest →
      v = w ∧ ∃ first, before = first ++ [.overflow]) ∧
    ∀ k < n,
      (s (k + 1)).bus.timer = (s k).signals.foldl Timer.feed (s k).bus.timer ∧
      ((∃ v w, .reloaded v w ∈ (s k).occurrences) → (s (k + 1)).bus.interruptFlags &&& 4 ≠ 0) ∧
      ((∀ v w, .reloaded v w ∉ (s k).occurrences) →
        (s (k + 1)).bus.interruptFlags = (act (s k).toMachine).2.bus.interruptFlags) := by
  intro s
  have settled (k : Nat) (early : k ≤ n) : (s k).bus.timer.Settled :=
    settled_after settled_initial fun j small => runs j (by omega)
  have next (k : Nat) : s (k + 1) = (s k).step.2 := (loaded cpu memory).after_succ k
  refine ⟨fun k early => (settled k early).phase.calm,?_,?_,?_⟩
  · intro k early before rest found
    obtain ⟨x,later,answered,other⟩ :=
      exists_answer (settled k (by omega)) (runs_after runs (by omega)) found
    rw [next]
    exact ⟨x,later,answered,answer_cases found answered other⟩
  · intro before v w rest found
    have paired := pairing_log settled_initial runs
    have member : .reloaded v w ∈ (loaded cpu memory).log n := by simp [found]
    rw [found] at paired
    exact ⟨eq_of_reloaded_log member,Occurrence.overflow_of_reloaded paired⟩
  · intro k early
    rw [next,requests_step]
    refine ⟨step_timer _,?_,?_⟩
    · rintro ⟨v,w,member⟩
      rw [if_pos (List.any_eq_true.mpr ⟨_,member,rfl⟩),or_four_and_four]
      decide
    · intro none
      apply if_neg
      intro some
      obtain ⟨x,member,reloads⟩ := List.any_eq_true.mp some
      cases x with
      | reloaded v w => exact none v w member
      | overflow | written => cases reloads

/-- A program that sets the timer going and lets TIMA overflow. -/
def overflowing : Memory :=
  Memory.zero.store 0 [0x3E,0x05,0xE0,0x07,0x3E,0xAB,0xE0,0x06,0x3E,0xFF,0xE0,0x05]

private theorem runs_overflowing : (loaded .powerOn overflowing).Runs 8 := by
  unfold Runs
  decide +kernel

theorem reloads_of_run_overflowing :
    (loaded .powerOn overflowing).log 8 = [.written,.overflow,.reloaded 0xAB 0xAB] ∧
      ((loaded .powerOn overflowing).after 8).bus.interruptFlags &&& 4 ≠ 0 := by
  refine ⟨by decide +kernel,?_⟩
  have requested := ((reloads_of_run .powerOn overflowing 8 runs_overflowing).2.2.2 7 (by decide)).2.1
  exact requested ⟨0xAB,0xAB,by decide +kernel⟩

end System
end Sm83
