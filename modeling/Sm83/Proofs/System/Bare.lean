import Sm83.Proofs.System.Reload

/-!
The system against a processor alone on plain memory. With all interrupts disabled, and as long as
the processor stays away from the registers of the last page, the two cannot be told apart
(`bare_of_aloof`), whatever the timer does.
-/
namespace Sm83

/-- The addresses at which the system is not plain memory. -/
def Address.registers : List UInt16 :=
  [Address.serialControl,Address.div,Address.tima,Address.tma,Address.tac,Address.interruptFlags,
    Address.displayLine,Address.interruptEnable]

namespace SystemBus
variable {a : UInt16}

theorem read_plain (b : SystemBus) (plain : a ∉ Address.registers) : b.read a = b.memory.read a := by
  unfold read
  split
  case h_8 => rfl
  all_goals exact absurd (by decide) plain

theorem write_plain (b : SystemBus) (v : UInt8) (plain : a ∉ Address.registers) :
    b.write a v = {b with memory := b.memory.write a v} := by
  unfold write
  split
  case h_8 => rfl
  all_goals exact absurd (by decide) plain

private theorem tick_memory (b : SystemBus) (n : Nat) :
    (b.tick n).memory = b.memory ∧ (b.tick n).interruptEnable = b.interruptEnable := by
  rw [tick_eq]
  exact ⟨rfl,rfl⟩

end SystemBus

/-- Nothing wakes a processor on either bus, and both hold the same bytes at all plain addresses. -/
structure Mirrors (b : SystemBus) (c : TraceBus) : Prop where
  off : b.interruptEnable = 0
  silent : (Bus.interrupts c).any = false
  memory : ∀ a ∉ Address.registers, b.memory.read a = c.bus.memory.read a

namespace Mirrors
variable {b : SystemBus} {c : TraceBus}

theorem waits (mirrors : Mirrors b c) : (Bus.interrupts b).any = (Bus.interrupts c).any := by
  have none : (Bus.interrupts b).any = false := by
    change (Interrupts.ofByte (b.interruptEnable &&& b.interruptFlags)).any = false
    rw [mirrors.off,UInt8.zero_and]
    rfl
  rw [none,mirrors.silent]

theorem follow (mirrors : Mirrors b c) {x : Access} (plain : x.addr ∉ Address.registers) :
    Mirrors (Bus.follow b x) (Bus.follow c x) := by
  obtain ⟨a,v,kind⟩ := x
  cases kind with
  | read => exact ⟨mirrors.off,mirrors.silent,mirrors.memory⟩
  | write =>
    change Mirrors (b.write a v) _
    rw [b.write_plain v plain]
    refine ⟨mirrors.off,mirrors.silent,?_⟩
    intro d apart
    change (b.memory.write a v).read d = (c.bus.memory.write a v).read d
    rw [Memory.read_write,Memory.read_write,mirrors.memory d apart]

theorem alike (mirrors : Mirrors b c) {l : List Access} (plain : ∀ x ∈ l, x.addr ∉ Address.registers) :
    Bus.Alike b c l ∧ Mirrors (l.foldl Bus.follow b) (l.foldl Bus.follow c) := by
  induction l generalizing b c with
  | nil => exact ⟨mirrors.waits,mirrors⟩
  | cons x l ih =>
    obtain ⟨first,rest⟩ := List.forall_mem_cons.mp plain
    obtain ⟨alike,last⟩ := ih (mirrors.follow first) rest
    refine ⟨⟨mirrors.waits,fun _ => ?_,alike⟩,last⟩
    exact (b.read_plain first).trans (mirrors.memory _ first)

theorem tick (mirrors : Mirrors b c) (n : Nat) : Mirrors (b.tick n) c := by
  obtain ⟨memory,enable⟩ := b.tick_memory n
  refine ⟨enable.trans mirrors.off,mirrors.silent,?_⟩
  rw [memory]
  exact mirrors.memory

end Mirrors

def Machine.after {σ : Type} [Bus σ] (m : Machine σ) : Nat → Machine σ
  | 0 => m
  | n + 1 => (Exec.step.run m).2.after n

namespace System
variable {s : System}

/-- The processor keeps to plain addresses in its next step. -/
def Aloof (s : System) : Prop := ∀ x ∈ s.accesses, x.addr ∉ Address.registers

theorem mirrors_step {c : TraceBus} (mirrors : Mirrors s.bus c) (aloof : s.Aloof) :
    s.step.1 = (Exec.step.run ⟨s.cpu,c⟩).1.map elapsed ∧
      s.step.2.cpu = (Exec.step.run ⟨s.cpu,c⟩).2.cpu ∧
      Mirrors s.step.2.bus (Exec.step.run ⟨s.cpu,c⟩).2.bus := by
  have refused : s.accepted = none := by
    apply s.accepted_eq_none_iff.mpr
    rintro ⟨-,-,waits⟩
    rw [mirrors.off,UInt8.zero_and,UInt8.zero_and] at waits
    exact waits rfl
  have act := s.act_eq
  rw [refused] at act
  have plain : ∀ x ∈ Exec.accesses (fun _ => Exec.step) s.toMachine, x.addr ∉ Address.registers := by
    simpa only [Aloof,accesses,refused] using aloof
  obtain ⟨alike,last⟩ := mirrors.alike plain
  have bare := (Routine.step.run_alike s.toMachine c alike).1
  have bus := Routine.step.bus_run s.toMachine
  rw [← bus] at last
  rw [bare]
  simp only [step,act]
  cases run : Exec.step.run s.toMachine with
  | mk result m =>
    rw [run] at last
    cases result with
    | error f => exact ⟨rfl,rfl,last⟩
    | ok n => exact ⟨rfl,rfl,last.tick _⟩

theorem mirrors_after {m : Machine TraceBus} (cpu : s.cpu = m.cpu) (mirrors : Mirrors s.bus m.bus)
    {n : Nat} (aloof : ∀ k < n, (s.after k).Aloof) :
    (s.after n).cpu = (m.after n).cpu ∧ Mirrors (s.after n).bus (m.after n).bus := by
  induction n generalizing s m with
  | zero => exact ⟨cpu,mirrors⟩
  | succ n ih =>
    obtain ⟨-,cpu',mirrors'⟩ := mirrors_step mirrors (aloof 0 (Nat.zero_lt_succ n))
    rw [cpu] at cpu' mirrors'
    exact ih cpu' mirrors' fun k early => aloof (k + 1) (Nat.succ_lt_succ early)

/-- A system with no interrupt enabled goes, step by step, the way of its processor alone on memory
that holds the same program, as long as it keeps away from the registers. Only a processor asleep
takes time in the system and none on its own. -/
theorem bare_of_aloof (off : s.bus.interruptEnable = 0) {memory : Memory}
    (same : ∀ a ∉ Address.registers, s.bus.memory.read a = memory.read a) (n : Nat)
    (aloof : ∀ k < n, (s.after k).Aloof) :
    let bare : Machine TraceBus := {cpu := s.cpu, bus := {bus := {memory := memory}}}
    (∀ k ≤ n, (s.after k).cpu = (bare.after k).cpu ∧ ∀ a ∉ Address.registers,
      (s.after k).bus.memory.read a = (bare.after k).bus.bus.memory.read a) ∧
    ∀ k < n, (s.after k).step.1 = (Exec.step.run (bare.after k)).1.map elapsed := by
  intro bare
  have silent : ({} : Interrupts).any = false := by decide
  have begun : Mirrors s.bus bare.bus := ⟨off,silent,same⟩
  have together (k : Nat) (early : k ≤ n) :
      (s.after k).cpu = (bare.after k).cpu ∧ Mirrors (s.after k).bus (bare.after k).bus := by
    apply mirrors_after rfl begun
    intro j before
    exact aloof j (Nat.lt_of_lt_of_le before early)
  constructor
  · intro k early
    obtain ⟨cpu,mirrors⟩ := together k early
    exact ⟨cpu,mirrors.memory⟩
  · intro k early
    obtain ⟨cpu,mirrors⟩ := together k (Nat.le_of_lt early)
    rw [(mirrors_step mirrors (aloof k early)).1,cpu]

/-- A program that stores a byte and goes to sleep. The timer runs, and all lines are requested. -/
def dozing : System :=
  { bus :=
      { memory := Memory.zero.store 0 [0x34,0x76]
        timer := {enabled := true, rate := twoBits 1}
        interruptFlags := 0x1F } }

private theorem aloof_dozing : ∀ k < 4, (dozing.after k).Aloof := by
  unfold Aloof
  decide +kernel

theorem bare_of_aloof_dozing :
    let bare : Machine TraceBus := {cpu := dozing.cpu, bus := {bus := {memory := dozing.bus.memory}}}
    dozing.bus.interruptEnable = 0 ∧ (dozing.after 4).cpu = (bare.after 4).cpu ∧
      (dozing.after 3).step.1 = .ok 4 ∧ (Exec.step.run (bare.after 3)).1.map elapsed = .ok 4 := by
  intro bare
  obtain ⟨states,results⟩ := bare_of_aloof (s := dozing) rfl (fun _ _ => rfl) 4 aloof_dozing
  have idle : (dozing.after 3).step.1 = .ok 4 := by decide +kernel
  exact ⟨rfl,(states 4 (Nat.le_refl 4)).1,idle,(results 3 (by decide)).symm.trans idle⟩

end System
end Sm83
