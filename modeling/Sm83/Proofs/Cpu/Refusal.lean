import Sm83.Proofs.Cpu.Switches

/-!
Steps that fail. `refused_of_step` says when one does and what it leaves behind, and `useAll_latched`
that its fault answers all that comes after it, up to a restart.
-/
namespace Sm83

namespace Use

def isAttempt : Use → Prop
  | @step _ _ _ | wake => True
  | _ => False

def restarts : Use → Prop
  | reset | skipBoot => True
  | _ => False

end Use

/-- What a use of a processor tells its user, and the accesses that it makes. -/
structure Reply where
  result : Option (Except Fault Nat) := none
  accesses : List Access := []

namespace Cpu
variable {c : Cpu} {f : Fault}

def use (c : Cpu) : Use → Reply × Cpu
  | @Use.step _ _ bus =>
    let m : Machine _ := ⟨c,bus⟩
    (⟨some (Exec.step.run m).1,Exec.accesses (fun _ => Exec.step) m⟩,(Exec.step.run m).2.cpu)
  | @Use.dispatch _ _ bus a =>
    let m : Machine _ := ⟨c,bus⟩
    (⟨some (.ok ((Exec.dispatch a).run m).1),Exec.accesses (fun _ => Exec.dispatch a) m⟩,
      ((Exec.dispatch a).run m).2.cpu)
  | .wake => ({},c.wake)
  | .reset => ({},.powerOn)
  | .skipBoot => ({},.postBoot)

def useAll (c : Cpu) : List Use → List Reply × Cpu
  | [] => ([],c)
  | u :: rest => ((c.use u).1 :: ((c.use u).2.useAll rest).1,((c.use u).2.useAll rest).2)

/-- The reply to an attempt that a fault stands in the way of. A wake has no result. -/
def refuse (f : Fault) : Use → Reply
  | @Use.step _ _ _ => {result := some (.error f)}
  | _ => {}

private theorem use_latched (latched : c.fault = some f) (awake : c.halted = false) {u : Use}
    (attempt : u.isAttempt) : c.use u = (refuse f u,c) := by
  cases u with
  | step bus =>
    let m : Machine _ := ⟨c,bus⟩
    have run : Exec.step.run m = (.error f,m) := Exec.run_step_latched latched
    have made : Exec.accesses (fun _ => Exec.step) m = [] := by
      obtain ⟨result,t,-,course⟩ := Exec.exists_course m
      cases course with
      | latched _ _ made => exact made
      | asleep clear | refused clear | executed _ clear => cases clear.symm.trans latched
    simp only [use,run,made,refuse,m]
  | wake =>
    have still : c.wake = c := by rw [wake,← awake]
    simp only [use,still,refuse]
  | _ => cases attempt

theorem useAll_latched (latched : c.fault = some f) (awake : c.halted = false) {uses : List Use}
    (attempts : ∀ u ∈ uses, u.isAttempt) : c.useAll uses = (uses.map (refuse f),c) := by
  induction uses with
  | nil => rfl
  | cons u rest ih =>
    have first := use_latched latched awake (attempts u List.mem_cons_self)
    have others := ih fun v member => attempts v (List.mem_cons_of_mem u member)
    rw [useAll,first,others,List.map_cons]

theorem fault_of_restarts {u : Use} (restarts : u.restarts) : (c.use u).2.fault = none := by
  cases u <;> first | rfl | cases restarts

end Cpu

namespace Machine
variable {σ : Type} [Bus σ] {m : Machine σ}

def refusal (m : Machine σ) : Fault := .illegal m.opcode m.cpu.regs.pc

def refused (m : Machine σ) : Cpu :=
  let spent := (if m.cpu.halted then 4 else 0) + 4
  { m.cpu with
    regs := {m.cpu.regs with pc := if m.cpu.haltBug then m.cpu.regs.pc else m.cpu.regs.pc + 1}
    halted := false
    eiDelay := false
    haltBug := false
    cycles := spent
    total := m.cpu.total + spent
    fault := some m.refusal }

private theorem underway_refused (m : Machine σ) :
    {m.underway.cpu with fault := some m.refusal} = m.refused := by
  obtain ⟨⟨regs,ime,halted,eiDelay,haltBug,cycles,total,fault⟩,b⟩ := m
  cases halted <;> cases haltBug <;> rfl

private theorem fetches_iff (clear : m.cpu.fault = none) :
    m.Fetches ↔ (m.cpu.halted → (Bus.interrupts m.bus).any) := by
  obtain ⟨result,t,-,course⟩ := Exec.exists_course m
  cases course with
  | latched f fault => cases clear.symm.trans fault
  | asleep _ halted quiet made => simp [Fetches,made,halted,quiet]
  | refused _ awake _ made | executed _ _ awake _ made => exact iff_of_true (by rw [Fetches,made]; rfl) awake

theorem refused_of_step {f : Fault} (clear : m.cpu.fault = none) (failed : (Exec.step.run m).1 = .error f) :
    Exec.step.run m = (.error m.refusal,⟨m.refused,m.underway.bus⟩) ∧ m.Fetches ∧
      m.opcode ∈ undefinedOpcodes ∧ Exec.accesses (fun _ => Exec.step) m = [m.fetch] := by
  obtain ⟨result,t,run,course⟩ := Exec.exists_course m
  rw [run] at failed ⊢
  cases course with
  | latched f fault => cases clear.symm.trans fault
  | asleep | executed => cases failed
  | refused _ awake decoded made =>
    rw [← m.underway_refused]
    exact ⟨rfl,(fetches_iff clear).mpr awake,(Instr.decode_eq_none_iff _).mp decoded,made⟩

theorem failed_of_fetches (clear : m.cpu.fault = none) (fetches : m.Fetches)
    (undefined : m.opcode ∈ undefinedOpcodes) : (Exec.step.run m).1 = .error m.refusal := by
  obtain ⟨result,t,run,course⟩ := Exec.exists_course m
  rw [run]
  cases course with
  | latched f fault => cases clear.symm.trans fault
  | asleep _ _ _ made =>
    rw [Fetches,made] at fetches
    cases fetches
  | refused => rfl
  | executed i _ _ decoded => cases decoded.symm.trans ((Instr.decode_eq_none_iff _).mpr undefined)

/-- A step without a fault behind it fails exactly if it fetches one of the undefined opcodes, awake
or woken. The fault names the opcode and its address. The step reads the opcode and no more, and
from then on each step on any bus fails with the same fault, without an access, and nothing but a
restart changes the processor. -/
theorem failed_iff (clear : m.cpu.fault = none) :
    (m.Fetches ↔ (m.cpu.halted → (Bus.interrupts m.bus).any)) ∧
    ((∃ f, (Exec.step.run m).1 = .error f) ↔ m.Fetches ∧ m.opcode ∈ undefinedOpcodes) ∧
    (∀ op pc, (Exec.step.run m).1 ≠ .error (.unimplemented op pc)) ∧
    ∀ f, (Exec.step.run m).1 = .error f →
      f = .illegal m.opcode m.cpu.regs.pc ∧
      Exec.accesses (fun _ => Exec.step) m = [⟨m.cpu.regs.pc,m.opcode,.read⟩] ∧
      (Exec.step.run m).2 = ⟨m.refused,(Bus.read m.bus m.cpu.regs.pc).2⟩ ∧
      ∀ uses : List Use, (∀ u ∈ uses, u.isAttempt) →
        m.refused.useAll uses = (uses.map (Cpu.refuse f),m.refused) ∧
        ∀ u : Use, u.restarts → (m.refused.use u).2.fault = none := by
  refine ⟨fetches_iff clear,⟨?_,?_⟩,?_,?_⟩
  · rintro ⟨f,failed⟩
    obtain ⟨-,fetches,undefined,-⟩ := refused_of_step clear failed
    exact ⟨fetches,undefined⟩
  · rintro ⟨fetches,undefined⟩
    exact ⟨_,failed_of_fetches clear fetches undefined⟩
  · intro op pc failed
    obtain ⟨run,-⟩ := refused_of_step clear failed
    rw [run] at failed
    cases failed
  · intro f failed
    obtain ⟨run,-,-,made⟩ := refused_of_step clear failed
    rw [run] at failed ⊢
    cases failed
    refine ⟨rfl,made,rfl,?_⟩
    intro uses attempts
    exact ⟨Cpu.useAll_latched rfl rfl attempts,fun _ => Cpu.fault_of_restarts⟩

/-- A sleeper that wakes to an undefined opcode. -/
def roughlyWoken : Machine FlatBus where
  cpu := {regs := {pc := 0xFFFF}, halted := true, total := 100}
  bus := {memory := Memory.zero.write 0xFFFF 0xDD, interrupts := .ofByte 4}

theorem failed_iff_roughlyWoken :
    let uses : List Use := [.step roughlyWoken.bus,.wake,.step (default : FlatBus)]
    let fault := Fault.illegal 0xDD 0xFFFF
    roughlyWoken.cpu.fault = none ∧ (Exec.step.run roughlyWoken).1 = .error fault ∧
      (∀ u ∈ uses, u.isAttempt) ∧ Use.restarts .skipBoot ∧
      Exec.accesses (fun _ => Exec.step) roughlyWoken = [⟨0xFFFF,0xDD,.read⟩] ∧
      roughlyWoken.refused.total = 108 ∧ roughlyWoken.refused.regs.pc = 0 ∧
      (roughlyWoken.refused.useAll uses).1 = [{result := some (.error fault)},{},{result := some (.error fault)}] ∧
      (roughlyWoken.refused.use .skipBoot).2.fault = none := by
  intro uses fault
  have opcode : roughlyWoken.opcode = 0xDD := by
    rw [Machine.opcode,roughlyWoken]
    simp only [Bus.read]
    rw [Memory.read_write,if_pos rfl]
  have named : roughlyWoken.refusal = fault := by rw [refusal,opcode]; rfl
  have failed : (Exec.step.run roughlyWoken).1 = .error fault := by
    rw [← named]
    refine failed_of_fetches rfl ((fetches_iff rfl).mpr fun _ => rfl) ?_
    rw [opcode]
    decide
  have attempts : ∀ u ∈ uses, u.isAttempt := by simp [uses,Use.isAttempt]
  obtain ⟨-,-,-,after⟩ := failed_iff (m := roughlyWoken) rfl
  obtain ⟨-,made,-,later⟩ := after fault failed
  obtain ⟨stuck,renewed⟩ := later uses attempts
  rw [opcode] at made
  refine ⟨rfl,failed,attempts,trivial,made,rfl,rfl,?_,renewed .skipBoot trivial⟩
  rw [stuck]
  rfl

end Machine
end Sm83
