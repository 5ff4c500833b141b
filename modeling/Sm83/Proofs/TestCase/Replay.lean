import Sm83.Proofs.Cpu.Footprint
import Sm83.Proofs.Cpu.Step
import Sm83.Generator
import Sm83.TestCase.Replay

/-!
Generated test cases and their replay. A case lists the memory that its step goes to, and the step
depends on no other, so the replay goes the same way (`Draw.run_initial`). Main statement:
`pinned_of_generate`.
-/
namespace Sm83

theorem mem_insertAddress {a b : UInt16} {as : List UInt16} :
    b ∈ insertAddress a as ↔ b = a ∨ b ∈ as := by
  induction as with
  | nil => simp [insertAddress]
  | cons c as ih =>
    unfold insertAddress
    split
    · exact List.mem_cons
    · split
      · rename_i same
        simp [same]
      · rw [List.mem_cons,ih,List.mem_cons]
        exact or_left_comm

theorem mem_addresses {trace : List Access} {a : UInt16} :
    a ∈ addresses trace ↔ ∃ x ∈ trace, x.addr = a := by
  have gathered (as : List UInt16) :
      a ∈ trace.foldl (fun as x => insertAddress x.addr as) as ↔ a ∈ as ∨ ∃ x ∈ trace, x.addr = a := by
    induction trace generalizing as with
    | nil => simp
    | cons x trace ih =>
      rw [List.foldl_cons,ih,mem_insertAddress]
      rw [eq_comm]
      simp [or_assoc,or_left_comm]
  rw [addresses,gathered]
  simp

theorem Memory.mem_cells {m : Memory} {as : List UInt16} {a : UInt16} {v : UInt8} :
    (a,v) ∈ m.cells as ↔ a ∈ as ∧ v = m.read a := by
  simp only [cells,List.mem_map,Prod.mk.injEq]
  constructor
  · rintro ⟨b,member,rfl,rfl⟩
    exact ⟨member,rfl⟩
  · rintro ⟨member,rfl⟩
    exact ⟨a,member,rfl,rfl⟩

private theorem Memory.read_cells (m n : Memory) (as : List UInt16) (a : UInt16) :
    ((m.cells as).foldl (fun m (a,v) => m.write a v) n).read a =
      if a ∈ as then m.read a else n.read a := by
  induction as generalizing n with
  | nil => rfl
  | cons b as ih =>
    change ((m.cells as).foldl _ (n.write b (m.read b))).read a = _
    rw [ih,read_write]
    by_cases same : a = b
    · simp [same]
    · simp [same]

namespace CpuState

private theorem registers_eq_iff (s t : CpuState) :
    s.registers = t.registers ↔ {s with ie := t.ie, ram := t.ram} = t := by
  obtain ⟨⟩ := s
  obtain ⟨⟩ := t
  simp only [registers,List.cons.injEq,Prod.mk.injEq,UInt8.toNat_inj,UInt16.toNat_inj,mk.injEq]
  grind

private theorem toCpu_ofCpu (c : Cpu) (ram : List (UInt16 × UInt8)) :
    (ofCpu c ram).toCpu = {regs := c.regs, ime := c.ime} := by
  have ime : (c.ime.toUInt8 != 0) = c.ime := by cases c.ime <;> rfl
  simp only [toCpu,ofCpu,Registers.f,Flags.ofByte_toByte,ime]

end CpuState

namespace TestCase

private theorem compareRegisters_eq_none_iff (got expected : CpuState) :
    compareRegisters got expected = none ↔ got.registers = expected.registers := by
  simp [compareRegisters,CpuState.registers]

private theorem compareMemory_eq_none_iff (m : Memory) (expected : List (UInt16 × UInt8)) :
    compareMemory m expected = none ↔ ∀ a v, (a,v) ∈ expected → m.read a = v := by
  simp [compareMemory]

private theorem compareClocks_eq_none_iff (got expected : Nat) :
    compareClocks got expected = none ↔ got = expected := by
  simp [compareClocks]

theorem replay_eq_none_iff {t : TestCase} {clocks : Nat} {m : Machine TraceBus}
    (run : Exec.step.run t.initial.machine = (.ok clocks,m)) :
    t.replay = none ↔ (CpuState.ofCpu m.cpu []).registers = t.expected.registers ∧
      (∀ a v, (a,v) ∈ t.expected.ram → m.bus.bus.memory.read a = v) ∧ clocks = 4 * t.cycles.length := by
  rw [← compareRegisters_eq_none_iff,← compareMemory_eq_none_iff,← compareClocks_eq_none_iff]
  simp only [replay,run]
  cases compareRegisters _ t.expected <;> cases compareMemory _ _ <;> simp

private theorem length_cyclesOf (trace : List Access) (clocks : Nat) :
    (cyclesOf trace clocks).length = clocks / 4 := by
  simp only [cyclesOf,List.length_take,List.length_append,List.length_map,List.length_replicate]
  omega

end TestCase

namespace Draw

def flat (d : Draw) (op : Opcode) : Machine FlatBus :=
  ⟨(d.machine op).cpu,{memory := d.program op}⟩

theorem opcode_flat (d : Draw) (op : Opcode) :
    (d.flat op).opcode = op.encoding.head (by cases op <;> simp [Opcode.encoding]) := by
  change (d.program op).read d.pc = _
  cases op with
  | primary byte => simp [program,Opcode.encoding,Memory.store,Memory.read_write]
  | prefixed byte =>
    have apart : d.pc ≠ d.pc + 1 := by simp
    simp [program,Opcode.encoding,Memory.store,Memory.read_write,apart]

private theorem exists_decode {op : Opcode} (listed : op ∈ Opcode.catalogue) (d : Draw) :
    ∃ i, Instr.decode (d.flat op).opcode = some i := by
  rw [← Option.isSome_iff_exists,Option.isSome_iff_ne_none,ne_eq,Instr.decode_eq_none_iff]
  rw [Opcode.mem_catalogue_iff] at listed
  rw [opcode_flat]
  cases op with
  | primary byte =>
    simp only [Opcode.isCatalogued,Bool.not_eq_true',Bool.or_eq_false_iff] at listed
    simpa [Opcode.encoding] using listed.2
  | prefixed byte =>
    change 0xCB ∉ undefinedOpcodes
    decide

theorem step_flat {op : Opcode} (listed : op ∈ Opcode.catalogue) (d : Draw) :
    ∃ k m, Exec.step.run (d.flat op) = (.ok (4 * k),m) := by
  obtain ⟨i,decoded⟩ := exists_decode listed d
  cases run : Exec.step.run (d.flat op) with
  | mk result m =>
    have course := Exec.course_of_step run
    cases course with
    | latched f fault => cases fault
    | asleep clear halted => cases halted
    | refused clear awake illegal => simp [decoded] at illegal
    | executed j clear awake legal =>
      obtain ⟨k,clocks⟩ := (Exec.course_of_step run).clocks
      exact ⟨k,_,by rw [clocks]⟩

def trace (d : Draw) (op : Opcode) : List Access := Exec.accesses (fun _ => Exec.step) (d.flat op)

def initial (d : Draw) (op : Opcode) : CpuState :=
  .ofCpu (d.flat op).cpu ((d.program op).cells (addresses (d.trace op)))

private theorem agree_initial (d : Draw) (op : Opcode) :
    (d.program op).Agree (d.initial op).memory (d.trace op) := by
  intro x member
  have among : x.addr ∈ addresses (d.trace op) := mem_addresses.mpr ⟨x,member,rfl⟩
  change _ = (((d.program op).cells _).foldl (fun m (a,v) => m.write a v) Memory.zero).read x.addr
  rw [Memory.read_cells,if_pos among]

theorem run_machine (d : Draw) (op : Opcode) : Exec.step.run (d.machine op) =
    ((Exec.step.run (d.flat op)).1,⟨(Exec.step.run (d.flat op)).2.cpu,
      ⟨(Exec.step.run (d.flat op)).2.bus,(d.trace op).toArray⟩⟩) := by
  have noted : (#[] : Array Access) ++ d.trace op = (d.trace op).toArray := by simp
  rw [← noted]
  exact Routine.step.run_recorded (d.flat op) #[]

variable {d : Draw} {op : Opcode} {clocks : Nat} {after : Machine FlatBus}

theorem generate_eq (run : Exec.step.run (d.flat op) = (.ok clocks,after)) :
    TestCase.generate op d = .ok {
      name := TestCase.nameOf ((d.program op).slice d.pc op.length)
      initial := d.initial op
      expected := .ofCpu after.cpu (after.bus.memory.cells (addresses (d.trace op)))
      cycles := TestCase.cyclesOf (d.trace op) clocks } := by
  rw [TestCase.generate]
  simp only [run_machine,run]
  rfl

/-- The replay goes the way of the step, although most of the memory is empty. -/
theorem run_initial (run : Exec.step.run (d.flat op) = (.ok clocks,after)) :
    ∃ m, Exec.step.run (d.initial op).machine = (.ok clocks,m) ∧ m.cpu = after.cpu ∧
      ∀ a ∈ addresses (d.trace op), m.bus.bus.memory.read a = after.bus.memory.read a := by
  have begun : (d.initial op).machine =
      ⟨(d.flat op).cpu,⟨{memory := (d.initial op).memory},#[]⟩⟩ := by
    rw [CpuState.machine,initial,CpuState.toCpu_ofCpu]
    rfl
  -- Both memories hold the same wherever the step goes, so it cannot tell them apart.
  obtain ⟨result,cpu,memory⟩ := Routine.step.run_agree (m := d.flat op)
    (c := {memory := (d.initial op).memory}) rfl (d.agree_initial op)
  rw [run] at result cpu memory
  have recorded := Routine.step.run_recorded
    (⟨(d.flat op).cpu,{memory := (d.initial op).memory}⟩ : Machine FlatBus) #[]
  rw [result] at recorded
  rw [begun]
  refine ⟨_,recorded,cpu,?_⟩
  intro a among
  obtain ⟨x,member,rfl⟩ := mem_addresses.mp among
  exact memory _ (d.agree_initial op x member)

end Draw

namespace TestCase

theorem exists_generate {op : Opcode} (catalogued : op ∈ Opcode.catalogue) (d : Draw) :
    ∃ t clocks m, generate op d = .ok t ∧ Exec.step.run t.initial.machine = (.ok clocks,m) ∧
      (CpuState.ofCpu m.cpu []).registers = t.expected.registers ∧
      (∀ a v, (a,v) ∈ t.expected.ram → m.bus.bus.memory.read a = v) ∧ clocks = 4 * t.cycles.length := by
  obtain ⟨k,after,run⟩ := d.step_flat catalogued
  obtain ⟨m,replayed,cpu,memory⟩ := Draw.run_initial run
  refine ⟨_,_,m,Draw.generate_eq run,replayed,?_,?_,?_⟩
  · rw [cpu]
    rfl
  · intro a v member
    obtain ⟨among,rfl⟩ := Memory.mem_cells.mp member
    exact memory a among
  · rw [length_cyclesOf]
    omega

theorem generateMany_run {ρ : Type} (source : RandomSource (StateM ρ)) {op : Opcode}
    (catalogued : op ∈ Opcode.catalogue) (n : Nat) (start : ρ) :
    ∃ cases, ((generateMany source op n).run start).1 = (cases,none) ∧ cases.length = n ∧
      ∀ t ∈ cases, ∃ d, generate op d = .ok t := by
  induction n generalizing start with
  | zero => exact ⟨[],rfl,rfl,by simp⟩
  | succ n ih =>
    obtain ⟨t,-,-,generated,-⟩ := exists_generate catalogued ((source.draw op).run start).1
    obtain ⟨cases,made,length,each⟩ := ih ((source.draw op).run start).2
    refine ⟨t :: cases,?_,congrArg (· + 1) length,List.forall_mem_cons.mpr ⟨⟨_,generated⟩,each⟩⟩
    rw [generateMany,StateT.run_bind]
    dsimp only [bind]
    rw [generated]
    exact congrArg (fun made => (t :: made.1,made.2)) made

/-- The replay finds no mismatch, and finds one as soon as another register, another value of a listed
byte or another number of cycles is expected. -/
structure Pinned (t : TestCase) : Prop where
  replay : t.replay = none
  altered : ∀ u : TestCase, u.initial = t.initial →
    ({u.expected with ie := t.expected.ie, ram := t.expected.ram} ≠ t.expected ∨
      (∃ a v w, (a,v) ∈ t.expected.ram ∧ (a,w) ∈ u.expected.ram ∧ w ≠ v) ∨
      u.cycles.length ≠ t.cycles.length) → ∃ mismatch, u.replay = some mismatch

theorem pinned_of_replay {t : TestCase} {clocks : Nat} {m : Machine TraceBus}
    (run : Exec.step.run t.initial.machine = (.ok clocks,m)) (sound : t.replay = none) : t.Pinned := by
  refine ⟨sound,?_⟩
  intro u same altered
  apply Option.ne_none_iff_exists'.mp
  intro met
  obtain ⟨registers,memory,length⟩ := (replay_eq_none_iff run).mp sound
  rw [← same] at run
  obtain ⟨registers',memory',length'⟩ := (replay_eq_none_iff run).mp met
  rcases altered with other | ⟨a,v,w,listed,listed',other⟩ | other
  · exact other ((CpuState.registers_eq_iff _ _).mp (registers'.symm.trans registers))
  · exact other ((memory' a w listed').symm.trans (memory a v listed))
  · omega

/-- Every listed opcode and every draw give a case, and any random source a full number of them; and
each case pins down its step. -/
theorem pinned_of_generate {op : Opcode} (catalogued : op ∈ Opcode.catalogue) :
    (∀ d : Draw, ∃ t, generate op d = .ok t ∧ t.Pinned) ∧
    ∀ (ρ : Type) (source : RandomSource (StateM ρ)) (start : ρ), ∃ cases,
      ((generateMany source op Generator.casesPerFile).run start).1 = (cases,none) ∧
        cases.length = 1000 ∧ ∀ t ∈ cases, t.Pinned ∧ ∃ d, generate op d = .ok t := by
  have pinned (d : Draw) : ∃ t, generate op d = .ok t ∧ t.Pinned := by
    obtain ⟨t,clocks,m,generated,run,met⟩ := exists_generate catalogued d
    exact ⟨t,generated,pinned_of_replay run ((replay_eq_none_iff run).mpr met)⟩
  refine ⟨pinned,?_⟩
  intro ρ source start
  obtain ⟨cases,made,length,each⟩ := generateMany_run source catalogued 1000 start
  refine ⟨cases,made,length,?_⟩
  intro t member
  obtain ⟨d,generated⟩ := each t member
  obtain ⟨u,same,holds⟩ := pinned d
  cases generated.symm.trans same
  exact ⟨holds,d,generated⟩

/-- A push that overwrites its own opcode. -/
def selfish : Draw :=
  { memory := .zero, af := 0, bc := 0x1234, de := 0, hl := 0, sp := 0xC001, pc := 0xC000, ime := true }

theorem pinned_of_generate_push : Opcode.primary 0xC5 ∈ Opcode.catalogue ∧
    ∃ t, generate (.primary 0xC5) selfish = .ok t ∧ t.Pinned := by
  have catalogued : Opcode.primary 0xC5 ∈ Opcode.catalogue := by
    rw [Opcode.mem_catalogue_iff]
    decide
  exact ⟨catalogued,(pinned_of_generate catalogued).1 selfish⟩

end TestCase
end Sm83
