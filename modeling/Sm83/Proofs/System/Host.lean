import Sm83.Proofs.System.Dispatch
import Sm83.Proofs.System.Reload

/-!
The states into which a host can bring a system. A run is nothing but a number of steps
(`runUntil_eq_after`), so what a step and each other deed keep holds in all of them
(`undergoAll_induction`).
-/
namespace Sm83

/-- All that a host can do with a system and with its processor. -/
inductive Deed
  | move (move : Move)
  | run (budget : Nat) (done : System → Bool)
  | tick (clocks : Nat)
  | attachSink
  | set (regs : Registers) (ime halted : Bool)
  | wake
  | reset
  | skipBoot

def Deed.takesSteps : Deed → Bool
  | move .step | run _ _ => true
  | _ => false

namespace System

def undergo (s : System) : Deed → System
  | .move m => s.perform m
  | .run budget done => (s.run budget done).2
  | .tick clocks => {s with bus := s.bus.tick clocks}
  | .attachSink => {s with bus := s.bus.attachSink}
  | .set regs ime halted => {s with cpu := {s.cpu with regs := regs, ime := ime, halted := halted}}
  | .wake => {s with cpu := s.cpu.wake}
  | .reset => {s with cpu := .powerOn}
  | .skipBoot => {s with cpu := .postBoot}

def undergoAll (s : System) (deeds : List Deed) : System := deeds.foldl undergo s

theorem undergoAll_append (s : System) (first rest : List Deed) :
    s.undergoAll (first ++ rest) = (s.undergoAll first).undergoAll rest :=
  List.foldl_append

theorem undergoAll_concat (s : System) (deeds : List Deed) (d : Deed) :
    s.undergoAll (deeds ++ [d]) = (s.undergoAll deeds).undergo d :=
  s.undergoAll_append deeds [d]

theorem undergoAll_steps (s : System) (n : Nat) :
    s.undergoAll (List.replicate n (.move .step)) = s.after n := by
  induction n generalizing s with
  | zero => rfl
  | succ n ih => exact ih s.step.2

theorem runUntil_eq_after {ω : Type} (o : Observer ω) (deadline : Nat) (s : System) (w : ω) :
    ∃ n, (runUntil o deadline s w).2.1 = s.after n := by
  fun_induction runUntil o deadline s w with
  | case1 s w early leaving fault t failed => exact ⟨1,(congrArg Prod.snd failed).symm⟩
  | case2 s w early leaving n t taken later ended => exact ⟨1,(congrArg Prod.snd taken).symm⟩
  | case3 s w early leaving n t taken later going on ih =>
    obtain ⟨k,reached⟩ := ih
    refine ⟨k + 1,?_⟩
    rw [reached,after,taken]
  | case4 s w late => exact ⟨0,rfl⟩

theorem run_eq_after (s : System) (budget : Nat) (done : System → Bool) :
    ∃ n, (s.run budget done).2 = s.after n :=
  runUntil_eq_after _ _ s ()

theorem undergoAll_induction {motive : System → Prop} (begun : motive powerOn)
    (step : ∀ deeds, motive (powerOn.undergoAll deeds) → motive (powerOn.undergoAll deeds).step.2)
    (host : ∀ s d, d.takesSteps = false → motive s → motive (s.undergo d)) (deeds : List Deed) :
    motive (powerOn.undergoAll deeds) := by
  induction deeds using List.reverseRecOn with
  | nil => exact begun
  | append_singleton deeds d ih =>
    rw [undergoAll_concat]
    have steps (n : Nat) : motive ((powerOn.undergoAll deeds).after n) := by
      induction n with
      | zero => exact ih
      | succ n held =>
        rw [← undergoAll_steps,← undergoAll_append] at held
        have next := step _ held
        rw [undergoAll_append,undergoAll_steps,← after_succ] at next
        exact next
    cases timed : d.takesSteps with
    | false => exact host _ d timed ih
    | true =>
      cases d with
      | run budget done =>
        obtain ⟨n,reached⟩ := (powerOn.undergoAll deeds).run_eq_after budget done
        have held := steps n
        rw [← reached] at held
        exact held
      | move m =>
        cases m with
        | step => exact steps 1
        | _ => cases timed
      | _ => cases timed

end System
end Sm83
