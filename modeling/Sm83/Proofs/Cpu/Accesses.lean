import Sm83.Proofs.Cpu.Routine

/-!
What a piece of work does to its bus. A recording bus changes nothing (`Routine.run_recorded`), the
recorded accesses are all that happens to the bus (`Routine.bus_run`), the bytes that are read are
those that the bus gives (`Routine.gives`), and two buses that answer the accesses alike cannot be told
apart (`Routine.run_alike`).
-/
namespace Sm83
variable {σ τ : Type} [Bus σ] [Bus τ]

def Access.isWrite (x : Access) : Bool := x.kind == .write

namespace Exec

theorem run_bind {σ α β : Type} (x : Exec σ α) (f : α → Exec σ β) (m : Machine σ) :
    (x >>= f).run m = (f (x.run m).1).run (x.run m).2 := rfl

end Exec

namespace Bus

def follow (b : σ) (x : Access) : σ :=
  match x.kind with
  | .read => (Bus.read b x.addr).2
  | .write => Bus.write b x.addr x.data

/-- Two buses that answer a list of accesses alike, and agree all the time on whether an interrupt
waits. -/
def Alike (b : σ) (c : τ) : List Access → Prop
  | [] => (Bus.interrupts b).any = (Bus.interrupts c).any
  | x :: rest => (Bus.interrupts b).any = (Bus.interrupts c).any ∧
      (x.kind = .read → (Bus.read b x.addr).1 = (Bus.read c x.addr).1) ∧
      Alike (follow b x) (follow c x) rest

theorem Alike.waits {b : σ} {c : τ} {l : List Access} (h : Alike b c l) :
    (Bus.interrupts b).any = (Bus.interrupts c).any := by
  cases l with
  | nil => exact h
  | cons x rest => exact h.1

private theorem alike_append (b : σ) (c : τ) (l k : List Access) :
    Alike b c (l ++ k) ↔ Alike b c l ∧ Alike (l.foldl follow b) (l.foldl follow c) k := by
  induction l generalizing b c with
  | nil => exact ⟨fun h => ⟨h.waits,h⟩,And.right⟩
  | cons x rest ih => simp only [List.cons_append,Alike,List.foldl_cons,ih,and_assoc]

def Gives (b : σ) : List Access → Prop
  | [] => True
  | x :: rest => (x.kind = .read → x.data = (Bus.read b x.addr).1) ∧ Gives (follow b x) rest

theorem gives_append (b : σ) (l k : List Access) :
    Gives b (l ++ k) ↔ Gives b l ∧ Gives (l.foldl follow b) k := by
  induction l generalizing b with
  | nil => exact (and_iff_right trivial).symm
  | cons x rest ih => simp only [List.cons_append,Gives,List.foldl_cons,ih,and_assoc]

end Bus

def Machine.recording (m : Machine σ) : Machine (Recorded σ) := {cpu := m.cpu, bus := {bus := m.bus}}

namespace Exec

def accesses {α : Type} (x : Program α) (m : Machine σ) : List Access :=
  ((x (Recorded σ)).run m.recording).2.bus.trace.toList

end Exec

namespace Routine
open Exec
variable {U V : (α : Type) → (Cpu → α × Cpu) → Prop} {α β : Type} {k n : Nat} {x : Program α}

private theorem exists_recorded (r : Routine U n x) (m : Machine σ) :
    ∃ made : List Access, ∀ trace : Array Access, (x (Recorded σ)).run ⟨m.cpu,⟨m.bus,trace⟩⟩ =
      (((x σ).run m).1,⟨((x σ).run m).2.cpu,⟨((x σ).run m).2.bus,trace ++ made⟩⟩) := by
  induction r generalizing m with
  | pure | onCpu | idle | interruptWaits => exact ⟨[],fun _ => rfl⟩
  | read a => exact ⟨[⟨a,(Bus.read m.bus a).1,.read⟩],fun _ => rfl⟩
  | write a v => exact ⟨[⟨a,v,.write⟩],fun _ => rfl⟩
  | more _ _ ih => exact ih m
  | bind _ _ first next =>
    obtain ⟨made,run⟩ := first m
    obtain ⟨rest,runNext⟩ := next _ _
    refine ⟨made ++ rest,fun trace => ?_⟩
    have joined : trace ++ made ++ rest = trace ++ (made ++ rest) := by
      apply Array.toList_inj.mp
      simp
    rw [run_bind,run trace,runNext,joined]
    rfl

theorem run_recorded (r : Routine U n x) (m : Machine σ) (trace : Array Access) :
    (x (Recorded σ)).run ⟨m.cpu,⟨m.bus,trace⟩⟩ =
      (((x σ).run m).1,⟨((x σ).run m).2.cpu,⟨((x σ).run m).2.bus,trace ++ accesses x m⟩⟩) := by
  obtain ⟨made,run⟩ := r.exists_recorded m
  have same : accesses x m = made := by rw [accesses,Machine.recording,run]; simp
  rw [run,same]

theorem accesses_bind (first : Routine U k x) {f : α → Program β} (next : ∀ a, Routine V n (f a))
    (m : Machine σ) :
    accesses (fun σ => x σ >>= fun a => f a σ) m =
      accesses x m ++ accesses (f ((x σ).run m).1) ((x σ).run m).2 := by
  rw [accesses,Machine.recording,run_bind,first.run_recorded m #[],(next _).run_recorded ((x σ).run m).2]
  simp

theorem bus_run (r : Routine U n x) (m : Machine σ) :
    ((x σ).run m).2.bus = (accesses x m).foldl Bus.follow m.bus := by
  induction r generalizing m with
  | pure | onCpu | idle | interruptWaits | read | write => rfl
  | more _ _ ih => exact ih m
  | bind r rs first next =>
    rw [accesses_bind r rs,List.foldl_append,← first,← next]
    rfl

theorem gives (r : Routine U n x) (m : Machine σ) : Bus.Gives m.bus (accesses x m) := by
  induction r generalizing m with
  | pure | onCpu | idle | interruptWaits => trivial
  | read a => exact ⟨fun _ => rfl,trivial⟩
  | write a v => exact ⟨nofun,trivial⟩
  | more _ _ ih => exact ih m
  | bind r rs first next =>
    rw [accesses_bind r rs,Bus.gives_append,← r.bus_run]
    exact ⟨first m,next _ _⟩

theorem length_writes_le (r : Routine U n x) (m : Machine σ) :
    ((accesses x m).filter Access.isWrite).length ≤ n := by
  induction r generalizing m with
  | pure | onCpu | idle | interruptWaits | read => exact Nat.zero_le _
  | write => exact Nat.le_refl 1
  | more _ le ih => exact Nat.le_trans (ih m) le
  | bind r rs first next =>
    rw [accesses_bind r rs,List.filter_append,List.length_append]
    exact Nat.add_le_add (first m) (next _ _)

theorem run_alike (r : Routine U n x) (m : Machine σ) (b : τ)
    (alike : Bus.Alike m.bus b (accesses x m)) :
    (x τ).run ⟨m.cpu,b⟩ =
        (((x σ).run m).1,⟨((x σ).run m).2.cpu,(accesses x m).foldl Bus.follow b⟩) ∧
      accesses x ⟨m.cpu,b⟩ = accesses x m := by
  induction r generalizing m b with
  | pure | onCpu | idle | write => exact ⟨rfl,rfl⟩
  | interruptWaits =>
    have same : (Bus.interrupts m.bus).any = (Bus.interrupts b).any := alike
    exact ⟨congrArg (fun w => (w,Machine.mk m.cpu b)) same.symm,rfl⟩
  | read a =>
    have same : (Bus.read m.bus a).1 = (Bus.read b a).1 := alike.2.1 rfl
    exact ⟨congrArg (fun v => (v,Machine.mk m.cpu.charge (Bus.read b a).2)) same.symm,
      congrArg (fun v => [Access.mk a v .read]) same.symm⟩
  | more _ _ ih => exact ih m b alike
  | bind r rs first next =>
    rw [accesses_bind r rs,Bus.alike_append,← r.bus_run] at alike
    obtain ⟨run,same⟩ := first m b alike.1
    obtain ⟨runNext,sameNext⟩ := next _ _ _ alike.2
    rw [accesses_bind r rs,accesses_bind r rs,run_bind,run,same,List.foldl_append]
    exact ⟨runNext,congrArg _ sameNext⟩

end Routine
end Sm83
