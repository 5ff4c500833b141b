import Sm83.Proofs.Cpu.Encoding
import Sm83.Proofs.Cpu.Outcome
import Sm83.Proofs.Cpu.Stack
import Sm83.Proofs.Opcodes

/-!
Jumps, calls and returns. A form with a condition does what the form without one does, or goes on to the
next instruction, and a return comes back behind its call. Main statement: `branches_of_step`.
-/
namespace Sm83

namespace Exec
variable {σ : Type} [Bus σ] {m : Machine σ}

/-- The step fetches `n` bytes of operands and goes on at `target`. -/
def GoesTo (m : Machine σ) (n : Nat) (target : UInt16) : Prop :=
  Leaves m {m.cpu.regs with pc := target} m.cpu.ime (m.code n)

/-- The step pushes the address `back` and goes on at `target`. -/
def Calls (m : Machine σ) (n : Nat) (back target : UInt16) : Prop :=
  let r := m.cpu.regs
  Leaves m {r with sp := r.sp - 2, pc := target} m.cpu.ime
    (m.code n ++ [⟨r.sp - 1,highByte back,.write⟩,⟨r.sp - 2,lowByte back,.write⟩])

/-- The step goes on at the address on the stack, with IME as `ime` says. -/
def Returns (m : Machine σ) (ime : Bool) : Prop :=
  let r := m.cpu.regs
  let lo := Bus.read m.begun.bus r.sp
  let hi := Bus.read lo.2 (r.sp + 1)
  Leaves m {r with sp := r.sp + 2, pc := word hi.1 lo.1} ime
    (m.code 0 ++ [⟨r.sp,lo.1,.read⟩,⟨r.sp + 1,hi.1,.read⟩])

section Choice
variable {i : Instr} {cond : Option Cond} {x yes no : Program Unit}
variable (running : m.cpu.Running) (decoded : Instr.decode m.opcode = some i) (plain : i.isPlain)
include running decoded plain

private theorem leaves_of_same
    (same : ∀ (τ : Type) [Bus τ] (b : τ), (execute i).run ⟨m.begun.cpu,b⟩ = (x τ).run ⟨m.begun.cpu,b⟩) :
    Leaves m ((x σ).run m.begun).2.cpu.regs m.cpu.ime (m.fetch :: accesses x m.begun) := by
  have run : (execute i).run m.begun = (x σ).run m.begun := same σ m.begun.bus
  have made : accesses (fun _ => execute i) m.begun = accesses x m.begun :=
    congrArg (fun w => w.2.bus.trace.toList) (same (Recorded σ) m.begun.recording.bus)
  have leaves := leaves_of_execute running decoded plain
  rw [run,made] at leaves
  exact leaves

private theorem leaves_of_admitted (choice : Choice cond (fun _ => execute i) yes no)
    (admitted : m.cpu.regs.flags.admits cond = true) :
    Leaves m ((yes σ).run m.begun).2.cpu.regs m.cpu.ime (m.fetch :: accesses yes m.begun) :=
  leaves_of_same running decoded plain fun τ _ b =>
    (choice τ ⟨m.begun.cpu,b⟩).trans (if_pos admitted)

private theorem leaves_of_refused (choice : Choice cond (fun _ => execute i) yes no)
    (refused : m.cpu.regs.flags.admits cond = false) :
    Leaves m ((no σ).run m.begun).2.cpu.regs m.cpu.ime (m.fetch :: accesses no m.begun) :=
  leaves_of_same running decoded plain fun τ _ b =>
    (choice τ ⟨m.begun.cpu,b⟩).trans (if_neg (Bool.eq_false_iff.mp refused))

end Choice

private theorem regs_jump (k : Machine σ) : ((execute (.jump none)).run k).2.cpu.regs =
    {k.cpu.regs with pc := operandWord (k.stream 2)} := rfl

private theorem regs_callTo (a : UInt16) (k : Machine σ) : ((callTo a).run k).2.cpu.regs =
    {k.cpu.regs with sp := k.cpu.regs.sp - 1 - 1, pc := a} := rfl

private theorem accesses_callTo (a : UInt16) (k : Machine σ) :
    accesses (fun _ => callTo a) k = Access.pushes k.cpu.regs.sp k.cpu.regs.pc := rfl

private theorem regs_call (k : Machine σ) : ((execute (.call none)).run k).2.cpu.regs =
    {k.cpu.regs with sp := k.cpu.regs.sp - 1 - 1, pc := operandWord (k.stream 2)} := by
  have called : (execute (.call none)).run k = (callTo (operandWord (k.stream 2))).run (k.skip 2) := rfl
  rw [called,regs_callTo]
  rfl

private theorem accesses_call (k : Machine σ) : accesses (fun _ => execute (.call none)) k =
    Access.fetches k.cpu.regs.pc (k.stream 2) ++ Access.pushes k.cpu.regs.sp (k.cpu.regs.pc + 1 + 1) := rfl

private theorem returnBack_pops (k : Machine σ) :
    let sp := k.cpu.regs.sp
    let lo := Bus.read k.bus sp
    let hi := Bus.read lo.2 (sp + 1)
    (returnBack.run k).2.cpu.regs = {k.cpu.regs with sp := sp + 1 + 1, pc := word hi.1 lo.1} ∧
      accesses (fun _ => returnBack) k = [⟨sp,lo.1,.read⟩,⟨sp + 1,hi.1,.read⟩] := ⟨rfl,rfl⟩

private theorem returns_of_returnBack {ime : Bool}
    (leaves : Leaves m (returnBack.run m.begun).2.cpu.regs ime
      (m.fetch :: accesses (fun _ => returnBack) m.begun)) : Returns m ime := by
  obtain ⟨regs,made⟩ := returnBack_pops m.begun
  rw [regs,made] at leaves
  rw [Returns,UInt16.add_two]
  exact leaves

section Forms
variable (running : m.cpu.Running) {cond : Option Cond}
include running

theorem goesTo_jump (decoded : Instr.decode m.opcode = some (.jump cond))
    (admitted : m.cpu.regs.flags.admits cond = true) : GoesTo m 2 (operandWord (m.begun.stream 2)) := by
  have leaves := leaves_of_admitted running decoded rfl (choice_jump cond) admitted
  rw [regs_jump] at leaves
  exact leaves

theorem goesTo_jump_next (decoded : Instr.decode m.opcode = some (.jump cond))
    (refused : m.cpu.regs.flags.admits cond = false) : GoesTo m 2 (m.cpu.regs.pc + 3) := by
  have leaves := leaves_of_refused running decoded rfl (choice_jump cond) refused
  rw [UInt16.add_three]
  exact leaves

theorem goesTo_jumpRel (decoded : Instr.decode m.opcode = some (.jumpRel cond))
    (admitted : m.cpu.regs.flags.admits cond = true) :
    GoesTo m 1 (m.cpu.regs.pc + 2 + signExtend m.begun.opcode) := by
  have leaves := leaves_of_admitted running decoded rfl (choice_jumpRel cond) admitted
  rw [UInt16.add_two]
  exact leaves

theorem goesTo_jumpRel_next (decoded : Instr.decode m.opcode = some (.jumpRel cond))
    (refused : m.cpu.regs.flags.admits cond = false) : GoesTo m 1 (m.cpu.regs.pc + 2) := by
  have leaves := leaves_of_refused running decoded rfl (choice_jumpRel cond) refused
  rw [UInt16.add_two]
  exact leaves

theorem calls_call (decoded : Instr.decode m.opcode = some (.call cond))
    (admitted : m.cpu.regs.flags.admits cond = true) :
    Calls m 2 (m.cpu.regs.pc + 3) (operandWord (m.begun.stream 2)) := by
  have leaves := leaves_of_admitted running decoded rfl (choice_call cond) admitted
  rw [regs_call,accesses_call] at leaves
  rw [Calls,UInt16.add_three,← UInt16.sub_one_sub_one]
  exact leaves

theorem goesTo_call_next (decoded : Instr.decode m.opcode = some (.call cond))
    (refused : m.cpu.regs.flags.admits cond = false) : GoesTo m 2 (m.cpu.regs.pc + 3) := by
  have leaves := leaves_of_refused running decoded rfl (choice_call cond) refused
  rw [UInt16.add_three]
  exact leaves

theorem calls_rst {target : UInt8} (decoded : Instr.decode m.opcode = some (.rst target)) :
    Calls m 0 (m.cpu.regs.pc + 1) target.toUInt16 := by
  have leaves := leaves_of_same running decoded rfl (x := fun _ => callTo target.toUInt16) fun _ _ _ => rfl
  rw [regs_callTo,accesses_callTo] at leaves
  rw [Calls,← UInt16.sub_one_sub_one]
  exact leaves

theorem returns_ret (decoded : Instr.decode m.opcode = some (.ret cond))
    (admitted : m.cpu.regs.flags.admits cond = true) : Returns m m.cpu.ime := by
  apply returns_of_returnBack
  cases cond with
  | none => exact leaves_of_same running decoded rfl fun _ _ _ => rfl
  | some cond =>
    -- the look at the condition takes a machine cycle of its own, which moves the clocks alone
    have leaves := leaves_of_admitted running decoded rfl (choice_ret cond) admitted
    have regs (k : Machine σ) : ((idle >>= fun _ => execute (.ret none)).run k).2.cpu.regs =
        (returnBack.run k).2.cpu.regs := rfl
    rw [regs] at leaves
    exact leaves

theorem goesTo_ret_next {cond : Cond} (decoded : Instr.decode m.opcode = some (.ret (some cond)))
    (refused : cond.holds m.cpu.regs.flags = false) : GoesTo m 0 (m.cpu.regs.pc + 1) :=
  leaves_of_refused running decoded rfl (choice_ret cond) refused

theorem returns_reti (decoded : Instr.decode m.opcode = some .reti) : Returns m true := by
  apply returns_of_returnBack
  exact leaves_of_switch running decoded fun _ => rfl

private theorem calls_of_calls {i : Instr} (decoded : Instr.decode m.opcode = some i)
    (calls : i.calls m.cpu.regs.flags) :
    ∃ n target, Calls m n (m.cpu.regs.pc + UInt16.ofNat (opcodeLength m.opcode)) target := by
  rw [opcodeLength_of_decode decoded]
  cases i with
  | call cond => exact ⟨_,_,calls_call running decoded calls⟩
  | rst target => exact ⟨_,_,calls_rst running decoded⟩
  | _ => cases calls

end Forms

private theorem follow_fetches (b : FlatBus) (a : UInt16) (bytes : List UInt8) :
    (Access.fetches a bytes).foldl Bus.follow b = b := by
  induction bytes generalizing a with
  | nil => rfl
  | cons v bytes ih => exact ih (a + 1)

theorem Calls.run {m : Machine FlatBus} {n : Nat} {back target : UInt16} (calls : Calls m n back target) :
    (step.run m).2.cpu.regs.sp = m.cpu.regs.sp - 2 ∧
      (step.run m).2.bus.memory = m.bus.memory.pushed m.cpu.regs.sp back := by
  obtain ⟨⟨n,run⟩,-⟩ := calls
  rw [run]
  dsimp only
  rw [List.foldl_append,Machine.code,follow_fetches]
  exact ⟨rfl,rfl⟩

theorem resumes_of_calls {m n : Machine FlatBus} {k : Nat} {back target : UInt16} {ime : Bool}
    (calls : Calls m k back target) (returns : Returns n ime)
    (sp : n.cpu.regs.sp = (step.run m).2.cpu.regs.sp)
    (kept : n.bus.memory.wordAt n.cpu.regs.sp = (step.run m).2.bus.memory.wordAt n.cpu.regs.sp) :
    (step.run n).2.cpu.regs.pc = back ∧ (step.run n).2.cpu.regs.sp = m.cpu.regs.sp := by
  obtain ⟨down,stored⟩ := calls.run
  obtain ⟨⟨_,run⟩,-⟩ := returns
  have word : n.bus.memory.wordAt n.cpu.regs.sp = back := by
    rw [kept,stored,sp,down]
    exact Memory.wordAt_pushed _ _ _
  have above : n.cpu.regs.sp + 2 = m.cpu.regs.sp := by
    rw [sp,down]
    exact (stack_apart m.cpu.regs.sp).2.2
  rw [run]
  exact ⟨word,above⟩

/-- A branch that is taken goes to its target, from a call with the address behind the instruction on the
stack. A form with a condition does what the form without one does where the condition holds, and is passed
over elsewhere; so of two forms with opposite conditions one is taken. A return finds the address that the
call has left, if the two bytes are still there. -/
theorem branches_of_step :
    (∀ (σ : Type) [Bus σ] (m : Machine σ), m.cpu.Running →
      let r := m.cpu.regs
      let op := m.opcode
      let e := m.begun.opcode
      let nn := operandWord (m.begun.stream 2)
      let holds : Fin 4 → Bool := ![!r.flags.z,r.flags.z,!r.flags.c,r.flags.c]
      (op = 0xC3 → GoesTo m 2 nn) ∧
      (op = 0x18 → GoesTo m 1 (r.pc + 2 + signExtend e)) ∧
      (op = 0xE9 → GoesTo m 0 r.hl) ∧
      (op = 0xCD → Calls m 2 (r.pc + 3) nn) ∧
      (op = 0xC9 → Returns m m.cpu.ime) ∧
      (op = 0xD9 → Returns m true) ∧
      (∀ t : Fin 8, op = .ofNat (0xC7 + 8 * t) → Calls m 0 (r.pc + 1) (8 * UInt16.ofNat t)) ∧
      (∀ p : Fin 4,
        (op = .ofNat (0xC2 + 8 * p) → if holds p then GoesTo m 2 nn else GoesTo m 2 (r.pc + 3)) ∧
        (op = .ofNat (0xC4 + 8 * p) →
          if holds p then Calls m 2 (r.pc + 3) nn else GoesTo m 2 (r.pc + 3)) ∧
        (op = .ofNat (0xC0 + 8 * p) → if holds p then Returns m m.cpu.ime else GoesTo m 0 (r.pc + 1)) ∧
        (op = .ofNat (0x20 + 8 * p) →
          if holds p then GoesTo m 1 (r.pc + 2 + signExtend e) else GoesTo m 1 (r.pc + 2))) ∧
      ∀ p q : Fin 4, q.val = p.val ^^^ 1 → holds q = !holds p) ∧
    ∀ (m n : Machine FlatBus) (i : Instr) (cond : Option Cond), m.cpu.Running → n.cpu.Running →
      Instr.decode m.opcode = some i → i.calls m.cpu.regs.flags →
      Instr.decode n.opcode = some (.ret cond) → n.cpu.regs.flags.admits cond →
      let t := (step.run m).2
      let u := (step.run n).2
      let sp := t.cpu.regs.sp
      n.cpu.regs.sp = sp → n.bus.memory.read sp = t.bus.memory.read sp →
      n.bus.memory.read (sp + 1) = t.bus.memory.read (sp + 1) →
        u.cpu.regs.pc = m.cpu.regs.pc + UInt16.ofNat (opcodeLength m.opcode) ∧
          u.cpu.regs.sp = m.cpu.regs.sp := by
  constructor
  · intro σ _ m running r op e nn holds
    refine ⟨?_,?_,?_,?_,?_,?_,?_,?_,?_⟩
    · exact fun here => goesTo_jump running (decode_of_opcode (i := .jump none) rfl here) rfl
    · exact fun here => goesTo_jumpRel running (decode_of_opcode (i := .jumpRel none) rfl here) rfl
    · exact fun here => leaves_of_execute (i := .jumpHL) running (decode_of_opcode rfl here) rfl
    · exact fun here => calls_call running (decode_of_opcode (i := .call none) rfl here) rfl
    · exact fun here => returns_ret running (decode_of_opcode (i := .ret none) rfl here) rfl
    · exact fun here => returns_reti running (decode_of_opcode rfl here)
    · intro t code
      have target : ∀ t : Fin 8, (UInt8.ofNat (8 * t)).toUInt16 = 8 * UInt16.ofNat t := by decide
      rw [← target]
      exact calls_rst running (decode_of_opcode (opcodeMap.rst t) code)
    · intro p
      have tested : (Fields.cond p).holds r.flags = holds p := Fields.holds_cond p r.flags
      refine ⟨?_,?_,?_,?_⟩
      · intro code
        have decoded := decode_of_opcode (opcodeMap.jump p) code
        cases held : holds p with
        | true => exact goesTo_jump running decoded (tested.trans held)
        | false => exact goesTo_jump_next running decoded (tested.trans held)
      · intro code
        have decoded := decode_of_opcode (opcodeMap.call p) code
        cases held : holds p with
        | true => exact calls_call running decoded (tested.trans held)
        | false => exact goesTo_call_next running decoded (tested.trans held)
      · intro code
        have decoded := decode_of_opcode (opcodeMap.ret p) code
        cases held : holds p with
        | true => exact returns_ret running decoded (tested.trans held)
        | false => exact goesTo_ret_next running decoded (tested.trans held)
      · intro code
        have decoded := decode_of_opcode (opcodeMap.jumpRel p) code
        cases held : holds p with
        | true => exact goesTo_jumpRel running decoded (tested.trans held)
        | false => exact goesTo_jumpRel_next running decoded (tested.trans held)
    · have opposite : ∀ z c : Bool, ∀ p q : Fin 4, q.val = p.val ^^^ 1 →
          ![!z,z,!c,c] q = !(![!z,z,!c,c] p) := by decide
      exact opposite r.flags.z r.flags.c
  · intro m n i cond running running' decoded calls decoded' admitted t u sp same low high
    obtain ⟨_,_,called⟩ := calls_of_calls running decoded calls
    have returns := returns_ret running' decoded' admitted
    refine resumes_of_calls called returns same ?_
    rw [Memory.wordAt,Memory.wordAt,same,low,high]

/-- `CALL NZ` at PC, and `RET` where it goes. -/
def visiting (z : Bool) : Machine FlatBus where
  cpu := {regs := {flags := {z := z}, sp := 0x0001, pc := 0x0010}}
  bus := {memory := (Memory.zero.store 0x0010 [0xC4,0x20,0x00]).write 0x0020 0xC9}

/-- The address that is pushed passes the end of memory. -/
theorem branches_of_step_visiting :
    Leaves (visiting false) {sp := 0xFFFF, pc := 0x0020} false
      [⟨0x0010,0xC4,.read⟩,⟨0x0011,0x20,.read⟩,⟨0x0012,0x00,.read⟩,⟨0x0000,0x00,.write⟩,
        ⟨0xFFFF,0x13,.write⟩] ∧
    Leaves (visiting true) {flags := {z := true}, sp := 0x0001, pc := 0x0013} false
      [⟨0x0010,0xC4,.read⟩,⟨0x0011,0x20,.read⟩,⟨0x0012,0x00,.read⟩] ∧
    (step.run (step.run (visiting false)).2).2.cpu.regs.pc = 0x0013 ∧
    (step.run (step.run (visiting false)).2).2.cpu.regs.sp = 0x0001 := by
  obtain ⟨branches,resumes⟩ := branches_of_step
  have running (z : Bool) : (visiting z).cpu.Running := ⟨rfl,rfl,rfl⟩
  have opcode (z : Bool) : (visiting z).opcode = 0xC4 := by cases z <;> decide +kernel
  have chosen (z : Bool) := branches FlatBus (visiting z) (running z)
  obtain ⟨-,-,-,-,-,-,-,taken,-⟩ := chosen false
  obtain ⟨-,-,-,-,-,-,-,passed,-⟩ := chosen true
  refine ⟨?_,?_,?_⟩
  · have leaves := (taken (twoBits 0)).2.1 (opcode false)
    exact leaves.congr (by decide +kernel) (by decide +kernel)
  · have leaves := (passed (twoBits 0)).2.1 (opcode true)
    exact leaves.congr (by decide +kernel) (by decide +kernel)
  · have back : (step.run (visiting false)).2.opcode = 0xC9 := by decide +kernel
    have resumed := resumes (visiting false) (step.run (visiting false)).2 _ none (running false)
      ⟨by decide +kernel,by decide +kernel,by decide +kernel⟩ (by rw [opcode]; rfl) rfl (by rw [back]; rfl)
      rfl rfl rfl rfl
    rw [opcode] at resumed
    exact resumed

end Exec
end Sm83
