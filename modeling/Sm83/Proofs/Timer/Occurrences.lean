import Mathlib.Data.List.Induction
import Sm83.Timer

/-!
What happens to TIMA. The timer is fed with writes and clocks, and as long as TIMA does not count
while a reload is pending, overflows and reloads alternate (`pairing_occurrences`).
-/
namespace Sm83

inductive Signal
  | div
  | tima (v : UInt8)
  | tma (v : UInt8)
  | tac (v : UInt8)
  | clock
deriving DecidableEq

/-- The write can make TIMA count. -/
def Signal.isEdge : Signal → Bool
  | div | tac _ => true
  | _ => false

/-- What happens to TIMA. A reload tells what TIMA then holds, and TMA. -/
inductive Occurrence
  | overflow
  | written
  | reloaded (tima tma : UInt8)
deriving DecidableEq

namespace Timer

def feed (t : Timer) : Signal → Timer
  | .div => t.writeDiv
  | .tima v => t.writeTima v
  | .tma v => t.writeTma v
  | .tac v => t.writeTac v
  | .clock => t.clock.1

/-- An overflow is TIMA going from 0xFF to 0, unless it is written. -/
def occurs (t : Timer) (x : Signal) : List Occurrence :=
  match x with
  | .tima _ => [.written]
  | x => (if t.tima = 0xFF ∧ (t.feed x).tima = 0 then [.overflow] else []) ++
      if x = .clock ∧ t.clock.2 then [.reloaded t.clock.1.tima t.clock.1.tma] else []

def occurrences (t : Timer) : List Signal → List Occurrence
  | [] => []
  | x :: rest => t.occurs x ++ (t.feed x).occurrences rest

end Timer

namespace Occurrence

def isReloaded : Occurrence → Bool
  | reloaded _ _ => true
  | _ => false

/-- Whether a reload is pending after some occurrences, if overflows and reloads alternate. -/
def pairing (pending : Bool) : List Occurrence → Option Bool
  | [] => some pending
  | overflow :: rest => if pending then none else pairing true rest
  | written :: rest => pairing false rest
  | reloaded _ _ :: rest => if pending then pairing false rest else none

theorem pairing_append (pending : Bool) (first rest : List Occurrence) :
    pairing pending (first ++ rest) = (pairing pending first).bind fun p => pairing p rest := by
  induction first generalizing pending with
  | nil => rfl
  | cons x first ih =>
    cases x with
    | overflow | reloaded =>
      simp only [List.cons_append,pairing]
      split
      · first | rfl | exact ih _
      · first | rfl | exact ih _
    | written => exact ih _

theorem next_of_overflow {pending last : Bool} {before after : List Occurrence}
    (paired : pairing pending (before ++ overflow :: after) = some last) :
    after = [] ∧ last = true ∨
      ∃ x rest, after = x :: rest ∧ x ≠ overflow := by
  rw [pairing_append] at paired
  obtain ⟨p,-,paired⟩ := Option.bind_eq_some_iff.mp paired
  rw [pairing] at paired
  split at paired
  · cases paired
  · cases after with
    | nil => exact .inl ⟨rfl,(Option.some.inj paired).symm⟩
    | cons x rest =>
      refine .inr ⟨x,rest,rfl,?_⟩
      rintro rfl
      simp [pairing] at paired

private theorem exists_of_pending {xs : List Occurrence} (paired : pairing false xs = some true) :
    ∃ before, xs = before ++ [overflow] := by
  induction xs using List.reverseRecOn with
  | nil => cases paired
  | append_singleton xs x _ =>
    rw [pairing_append] at paired
    obtain ⟨p,-,paired⟩ := Option.bind_eq_some_iff.mp paired
    cases x with
    | overflow => exact ⟨xs,rfl⟩
    | written => cases paired
    | reloaded => cases p <;> cases paired

theorem overflow_of_reloaded {v w : UInt8} {last : Bool} {before after : List Occurrence}
    (paired : pairing false (before ++ reloaded v w :: after) = some last) :
    ∃ first, before = first ++ [overflow] := by
  rw [pairing_append] at paired
  obtain ⟨p,pending,paired⟩ := Option.bind_eq_some_iff.mp paired
  cases p with
  | false => cases paired
  | true => exact exists_of_pending pending

end Occurrence

namespace Timer
open Occurrence

theorem occurrences_append (t : Timer) (xs ys : List Signal) :
    t.occurrences (xs ++ ys) = t.occurrences xs ++ (xs.foldl feed t).occurrences ys := by
  induction xs generalizing t with
  | nil => rfl
  | cons x xs ih => simp only [List.cons_append,occurrences,ih,List.append_assoc,List.foldl_cons]

/-- The timer with a signal taken in, before TIMA counts. -/
def stage (t : Timer) : Signal → Timer
  | .div => {t with divider := 0}
  | .tima v => t.writeTima v
  | .tma v => t.writeTma v
  | .tac v => {t with enabled := v &&& 4 != 0, rate := twoBits v.toNat}
  | .clock => {t with divider := t.divider + 1}

def falls (t : Timer) (x : Signal) : Bool := t.input && !(t.stage x).input

def counted (t : Timer) (x : Signal) : Timer :=
  if t.falls x then (t.stage x).increment else t.stage x

theorem falls_tima (t : Timer) (v : UInt8) : t.falls (.tima v) = false :=
  Bool.and_not_self t.input

theorem falls_tma (t : Timer) (v : UInt8) : t.falls (.tma v) = false :=
  Bool.and_not_self t.input

theorem feed_write {x : Signal} (t : Timer) (write : x ≠ .clock) : t.feed x = t.counted x := by
  cases x with
  | div | tac => rfl
  | tima v => rw [counted,falls_tima]; rfl
  | tma v => rw [counted,falls_tma]; rfl
  | clock => exact absurd rfl write

theorem clock_eq (t : Timer) : t.clock = (t.counted .clock).advanceReload := rfl

def Calm (t : Timer) : Prop := t.reload.isSome → t.tima = 0

variable {t : Timer} {x : Signal}

theorem counted_of_not_falls (still : t.falls x = false) : t.counted x = t.stage x := by
  rw [counted,still]
  rfl

theorem idle_of_falls (undisturbed : t.reload.isSome → t.falls x = false) (falls : t.falls x) :
    t.reload = none := by
  cases reload : t.reload with
  | none => rfl
  | some n => simp [undisturbed,reload] at falls

private theorem pairing_of_falls (idle : t.reload = none) (falls : t.falls x) :
    pairing false (t.occurs x) = some (t.feed x).reload.isSome ∧ (t.feed x).Calm := by
  have counts : t.counted x = (t.stage x).increment := by rw [counted,falls]; rfl
  cases x with
  | tima v => simp [falls_tima] at falls
  | tma v => simp [falls_tma] at falls
  | clock =>
    by_cases full : t.tima = 0xFF
    all_goals simp [occurs,feed,clock_eq,counts,stage,increment,advanceReload,full,idle,pairing,Calm]
  | div | tac =>
    by_cases full : t.tima = 0xFF
    all_goals simp [occurs,feed_write,counts,stage,increment,full,idle,pairing,Calm]

private theorem pairing_of_still (calm : t.Calm) (still : t.falls x = false) :
    pairing t.reload.isSome (t.occurs x) = some (t.feed x).reload.isSome ∧ (t.feed x).Calm := by
  have counts := counted_of_not_falls still
  have apart : ¬(t.tima = 0xFF ∧ t.tima = 0) := by
    rintro ⟨full,clear⟩
    cases full.symm.trans clear
  cases x with
  | tima v => exact ⟨rfl,fun pending => by cases pending⟩
  | clock =>
    cases reload : t.reload with
    | none => simp [occurs,feed,clock_eq,counts,stage,advanceReload,reload,pairing,Calm,apart]
    | some n =>
      have clear : t.tima = 0 := calm (by rw [reload]; rfl)
      cases n <;>
        simp [occurs,feed,clock_eq,counts,stage,advanceReload,reload,pairing,Calm,clear]
  | div | tma | tac =>
    simpa [occurs,feed_write,counts,stage,writeTma,apart,pairing,Calm] using calm

private theorem pairing_occurs (calm : t.Calm) (undisturbed : t.reload.isSome → t.falls x = false) :
    pairing t.reload.isSome (t.occurs x) = some (t.feed x).reload.isSome ∧ (t.feed x).Calm := by
  cases falls : t.falls x with
  | true =>
    have idle := idle_of_falls undisturbed falls
    rw [idle]
    exact pairing_of_falls idle falls
  | false => exact pairing_of_still calm falls

def Undisturbed (t : Timer) : List Signal → Prop
  | [] => True
  | x :: rest => (t.reload.isSome → t.falls x = false) ∧ (t.feed x).Undisturbed rest

theorem undisturbed_append (t : Timer) (xs ys : List Signal) :
    t.Undisturbed (xs ++ ys) ↔ t.Undisturbed xs ∧ (xs.foldl feed t).Undisturbed ys := by
  induction xs generalizing t with
  | nil => exact ⟨fun h => ⟨trivial,h⟩,And.right⟩
  | cons x xs ih => simp only [List.cons_append,Undisturbed,List.foldl_cons,ih,and_assoc]

/-- Overflows and reloads alternate as long as TIMA does not count while a reload is pending. -/
theorem pairing_occurrences (calm : t.Calm) {xs : List Signal} (undisturbed : t.Undisturbed xs) :
    pairing t.reload.isSome (t.occurrences xs) = some (xs.foldl feed t).reload.isSome ∧
      (xs.foldl feed t).Calm := by
  induction xs generalizing t with
  | nil => exact ⟨rfl,calm⟩
  | cons x xs ih =>
    obtain ⟨paired,next⟩ := pairing_occurs calm undisturbed.1
    rw [occurrences,pairing_append,paired]
    exact ih next undisturbed.2

private theorem advanceReload_loaded (loaded : t.advanceReload.2) :
    t.advanceReload.1.tima = t.advanceReload.1.tma := by
  unfold advanceReload at *
  split at loaded
  · cases loaded
  · split at loaded
    · rename_i clear
      rw [if_pos clear]
    · cases loaded
  · cases loaded

theorem eq_of_reloaded {v w : UInt8} {xs : List Signal}
    (found : .reloaded v w ∈ t.occurrences xs) : v = w := by
  induction xs generalizing t with
  | nil => cases found
  | cons x xs ih =>
    rcases List.mem_append.mp found with now | later
    · cases x with
      | clock =>
        have loaded : t.clock.2 ∧ v = t.clock.1.tima ∧ w = t.clock.1.tma := by
          simpa [occurs] using now
        rw [loaded.2.1,loaded.2.2]
        exact advanceReload_loaded loaded.1
      | tima => simp [occurs] at now
      | div | tma | tac => simp [occurs] at now
    · exact ih later

theorem tick_eq (n : Nat) (t : Timer) :
    t.tick n = ((List.replicate n Signal.clock).foldl feed t,
      (t.occurrences (List.replicate n .clock)).any Occurrence.isReloaded) := by
  induction n generalizing t with
  | zero => simp [occurrences]
  | succ n ih =>
    have now : (t.occurs .clock).any Occurrence.isReloaded = t.clock.2 := by
      cases loaded : t.clock.2 with
      | true => simp [occurs,loaded,Occurrence.isReloaded]
      | false =>
        simp only [occurs,loaded,Bool.false_eq_true,and_false,if_false,List.append_nil]
        split <;> rfl
    rw [tick_succ,ih,List.replicate_succ,occurrences,List.any_append,now]
    rfl

theorem not_isReloaded_of_writes {xs : List Signal} (writes : ∀ x ∈ xs, x ≠ .clock) :
    (t.occurrences xs).any Occurrence.isReloaded = false := by
  induction xs generalizing t with
  | nil => rfl
  | cons x xs ih =>
    obtain ⟨write,rest⟩ := List.forall_mem_cons.mp writes
    have now : (t.occurs x).any Occurrence.isReloaded = false := by
      cases x with
      | clock => exact absurd rfl write
      | tima => rfl
      | div | tma | tac =>
        simp only [occurs,reduceCtorEq,false_and,if_false,List.append_nil]
        split <;> rfl
    rw [occurrences,List.any_append,now,ih rest]
    rfl

end Timer
end Sm83
