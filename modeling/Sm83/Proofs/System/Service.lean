import Sm83.Proofs.Interrupts
import Sm83.Proofs.System.Bare
import Sm83.Proofs.System.Dispatch

/-!
The handlers of all lines that wait, one after the other. A handler that only returns leaves the
system as it was, less the request of its line and with PC below the stack (`step_called`), so
that the next line is entered at once and all of them in their order (`drained_of_ready`).
-/
namespace Sm83

private theorem vector_plain (line : Line) : vector line ∉ Address.registers := by
  revert line
  decide

private theorem SystemBus.tick_quiet {b : SystemBus} (quiet : b.timer.isQuiet) (n : Nat) :
    b.tick n = {b with timer := {b.timer with divider := b.timer.divider + UInt16.ofNat n}} := by
  simp only [tick,Timer.tick,quiet,if_true]
  rfl

namespace System
variable {s : System} {line : Line} {rest : List Line}

/-- Nothing stands between the system and the lines that wait, whose handlers do nothing but return. -/
structure Ready (s : System) : Prop where
  ime : s.cpu.ime
  settled : s.cpu.eiDelay = false
  unarmed : s.cpu.haltBug = false
  clear : s.cpu.fault = none
  quiet : s.bus.timer.isQuiet
  handlers : ∀ line ∈ s.bus.interrupts.lines, s.bus.memory.read (vector line) = 0xD9
  high : s.cpu.regs.sp - 1 ∉ Address.registers
  low : s.cpu.regs.sp - 2 ∉ Address.registers
  apart : ∀ line ∈ s.bus.interrupts.lines,
    vector line ≠ s.cpu.regs.sp - 1 ∧ vector line ≠ s.cpu.regs.sp - 2

def pushed (s : System) : Memory :=
  (s.bus.memory.write (s.cpu.regs.sp - 1) (highByte s.cpu.regs.pc)).write (s.cpu.regs.sp - 2)
    (lowByte s.cpu.regs.pc)

/-- The peripherals after some clocks, with PC pushed and the requests of the lines withdrawn. -/
def busAfter (s : System) (lines : List Line) (clocks : Nat) : SystemBus :=
  { s.bus with
    memory := s.pushed
    timer := {s.bus.timer with divider := s.bus.timer.divider + UInt16.ofNat clocks}
    interruptFlags := lines.foldl Interrupts.withdraw s.bus.interruptFlags }

def called (s : System) (line : Line) : System :=
  ⟨⟨s.inHandler (vector line),s.busAfter [line] 20⟩,s.clock + 20⟩

def served (s : System) (lines : List Line) : System where
  cpu :=
    { s.cpu with
      ime := true
      halted := false
      cycles := 16
      total := s.cpu.total + 36 * lines.length }
  bus := s.busAfter lines (36 * lines.length)
  clock := s.clock + 36 * lines.length

theorem read_pushed (s : System) (a : UInt16) : s.pushed.read a =
    if a = s.cpu.regs.sp - 2 then lowByte s.cpu.regs.pc
    else if a = s.cpu.regs.sp - 1 then highByte s.cpu.regs.pc else s.bus.memory.read a := by
  rw [pushed,Memory.read_write,Memory.read_write]

private theorem enters_of_ready (ready : s.Ready) (waiting : s.bus.interrupts.lines = line :: rest) :
    s.Enters line (s.called line) := by
  have accepts : s.cpu.acceptsInterrupts := by simp [Cpu.acceptsInterrupts,ready.ime,ready.settled]
  have accepted : s.accepted = some line := by
    rw [System.accepted,if_pos accepts,Interrupts.highest_eq_head?,waiting]
    rfl
  have bus : (s.settle (s.enter line) 20).bus = s.busAfter [line] 20 := by
    change (((s.bus.acknowledge line.bit).write (s.cpu.regs.sp - 1) _).write (s.cpu.regs.sp - 2) _).tick
      20 = _
    rw [SystemBus.write_plain _ _ ready.high,SystemBus.write_plain _ _ ready.low]
    exact SystemBus.tick_quiet (b := {s.bus.acknowledge line.bit with memory := s.pushed}) ready.quiet 20
  have entered := enters_of_accepted accepted
  have same : s.settle (s.enter line) 20 = s.called line := by
    rw [called,← bus]
    rfl
  rw [same] at entered
  exact entered

private theorem run_reti (m : Machine SystemBus) : ((Exec.execute .reti).run m).2 =
    ⟨{m.cpu with
      regs := {m.cpu.regs with
        sp := m.cpu.regs.sp + 1 + 1
        pc := word (m.bus.read (m.cpu.regs.sp + 1)) (m.bus.read m.cpu.regs.sp)}
      ime := true
      cycles := m.cpu.cycles + 4 + 4 + 4
      total := m.cpu.total + 4 + 4 + 4},m.bus⟩ := by
  rfl

private theorem step_of_reti (off : s.cpu.ime = false) (awake : s.cpu.halted = false)
    (unarmed : s.cpu.haltBug = false) (clear : s.cpu.fault = none)
    (opcode : s.bus.read s.cpu.regs.pc = 0xD9) :
    s.Executes .reti ∧ s.step = (.ok 16,s.settle
      ⟨{s.cpu with
        regs := {s.cpu.regs with
          sp := s.cpu.regs.sp + 2
          pc := word (s.bus.read (s.cpu.regs.sp + 1)) (s.bus.read s.cpu.regs.sp)}
        ime := true
        eiDelay := false
        cycles := 16
        total := s.cpu.total + 16},s.bus⟩ 16) := by
  have reti : Instr.decode 0xD9 = some .reti := by decide
  have decoded : Instr.decode s.opcode = some .reti := by
    rw [← reti,← opcode]
    rfl
  obtain ⟨result,t,step,turn⟩ := s.exists_turn
  cases turn with
  | entered line accepted =>
    have interruptible := s.exists_accepted_iff.mp ⟨line,accepted⟩
    cases off.symm.trans interruptible.1
  | failed refused course =>
    cases course with
    | latched f fault => cases clear.symm.trans fault
    | refused clear awake illegal => cases decoded.symm.trans illegal
  | passed refused course made =>
    cases course with
    | asleep clear halted => cases awake.symm.trans halted
    | executed i clear rouse legal fetched =>
      cases decoded.symm.trans legal
      have head : s.accesses.head? = some ⟨s.cpu.regs.pc,s.opcode,.read⟩ := by
        rw [made,fetched]
        rfl
      refine ⟨⟨_,head,decoded⟩,?_⟩
      have begun : s.underway = ⟨{s.cpu with
          regs := {s.cpu.regs with pc := s.cpu.regs.pc + 1}
          eiDelay := false
          cycles := 4
          total := s.cpu.total + 4},s.bus⟩ := by
        simp only [Machine.underway,Cpu.roused,Cpu.fetched,Cpu.charge,awake,unarmed]
        rfl
      have next : s.cpu.regs.sp + 1 + 1 = s.cpu.regs.sp + 2 := UInt16.add_assoc _ 1 1
      rw [step,run_reti,begun]
      simp only [next]
      rfl

theorem step_called (ready : s.Ready) (waiting : s.bus.interrupts.lines = line :: rest) :
    (s.called line).Executes .reti ∧ (s.called line).step = (.ok 16,s.served [line]) := by
  obtain ⟨different,above,back⟩ := stack_apart s.cpu.regs.sp
  have member : line ∈ s.bus.interrupts.lines := by
    rw [waiting]
    exact List.mem_cons_self
  obtain ⟨apart,apart'⟩ := ready.apart line member
  have opcode : (s.called line).bus.read (vector line) = 0xD9 := by
    rw [SystemBus.read_plain _ (vector_plain line)]
    change s.pushed.read (vector line) = _
    rw [read_pushed,if_neg apart',if_neg apart]
    exact ready.handlers line member
  have low : (s.called line).bus.read (s.cpu.regs.sp - 2) = lowByte s.cpu.regs.pc := by
    rw [SystemBus.read_plain _ ready.low]
    exact (s.read_pushed _).trans (if_pos rfl)
  have high : (s.called line).bus.read (s.cpu.regs.sp - 1) = highByte s.cpu.regs.pc := by
    rw [SystemBus.read_plain _ ready.high]
    change s.pushed.read _ = _
    rw [read_pushed,if_neg different,if_pos rfl]
  obtain ⟨executes,step⟩ := step_of_reti (s := s.called line) rfl rfl ready.unarmed ready.clear opcode
  refine ⟨executes,?_⟩
  have sp : (s.called line).cpu.regs.sp = s.cpu.regs.sp - 2 := rfl
  rw [step,sp,above,back,low,high,word_high_low]
  have bus : (s.called line).bus.tick 16 = s.busAfter [line] 36 := by
    have quiet : (s.called line).bus.timer.isQuiet := ready.quiet
    rw [SystemBus.tick_quiet quiet]
    have sum : s.bus.timer.divider + UInt16.ofNat 20 + UInt16.ofNat 16 =
        s.bus.timer.divider + UInt16.ofNat 36 := UInt16.add_assoc _ _ _
    simp only [called,busAfter,sum]
  rw [settle,bus]
  simp only [called,served,Machine.inHandler,ready.settled,ready.clear]
  rfl

private theorem pushed_served (s : System) (lines : List Line) : (s.served lines).pushed = s.pushed := by
  -- PC and SP are back in place, so the next handler stores the same bytes again.
  apply Memory.ext_read
  intro a
  have outer := (s.served lines).read_pushed a
  have inner := s.read_pushed a
  change _ = if _ then _ else if _ then _ else s.pushed.read a at outer
  rw [outer,inner]
  simp only [served]
  split
  · rfl
  · split <;> rfl

theorem served_served (s : System) (line : Line) (rest : List Line) :
    (s.served [line]).served rest = s.served (line :: rest) := by
  have clocks (n : Nat) : n + 36 * [line].length + 36 * rest.length = n + 36 * (line :: rest).length := by
    simp only [List.length_cons,List.length_nil]
    omega
  have divider : s.bus.timer.divider + UInt16.ofNat (36 * [line].length) +
      UInt16.ofNat (36 * rest.length) = s.bus.timer.divider + UInt16.ofNat (36 * (line :: rest).length) := by
    have sum := clocks 0
    rw [UInt16.add_assoc,← UInt16.ofNat_add]
    congr 2
    omega
  have bus : (s.served [line]).busAfter rest (36 * rest.length) =
      s.busAfter (line :: rest) (36 * (line :: rest).length) := by
    rw [busAfter,pushed_served,busAfter,← divider]
    rfl
  rw [served,bus,served]
  simp only [served,clocks]

private theorem lines_served (waiting : s.bus.interrupts.lines = line :: rest) :
    (s.served [line]).bus.interrupts.lines = rest := by
  have ordered := s.bus.interrupts.pairwise_lines
  rw [waiting,List.pairwise_cons] at ordered
  have left : (s.served [line]).bus.interrupts.lines = (line :: rest).filter (· != line) := by
    rw [← waiting]
    exact Interrupts.lines_withdraw _ _ _
  rw [left,List.filter_cons_of_neg (by simp),List.filter_eq_self]
  intro l member
  exact bne_iff_ne.mpr (Fin.ne_of_gt (ordered.1 l member))

theorem ready_served (ready : s.Ready) (waiting : s.bus.interrupts.lines = line :: rest) :
    (s.served [line]).Ready := by
  have among : ∀ l ∈ (s.served [line]).bus.interrupts.lines, l ∈ s.bus.interrupts.lines := by
    intro l member
    rw [lines_served waiting] at member
    rw [waiting]
    exact List.mem_cons_of_mem _ member
  refine ⟨rfl,ready.settled,ready.unarmed,ready.clear,ready.quiet,?_,ready.high,ready.low,?_⟩
  · intro l member
    obtain ⟨apart,apart'⟩ := ready.apart l (among l member)
    change s.pushed.read (vector l) = _
    rw [read_pushed,if_neg apart',if_neg apart]
    exact ready.handlers l (among l member)
  · intro l member
    exact ready.apart l (among l member)

/-- The next step enters the handler of the line, and the one after it returns. -/
structure Serves (s : System) (line : Line) : Prop where
  enters : s.Enters line s.step.2
  executes : s.step.2.Executes .reti
  returns : s.step.2.step = (.ok 16,s.after 2)

theorem serves_of_ready (ready : s.Ready) (waiting : s.bus.interrupts.lines = line :: rest) :
    s.Serves line ∧ s.after 2 = s.served [line] := by
  have entered := enters_of_ready ready waiting
  obtain ⟨executes,returned⟩ := step_called ready waiting
  have first : s.step.2 = s.called line := by rw [entered.step]
  have last : s.after 2 = s.served [line] := by
    change s.step.2.step.2 = _
    rw [first,returned]
  refine ⟨⟨?_,?_,?_⟩,last⟩
  · rw [first]
    exact entered
  · rw [first]
    exact executes
  · rw [first,last]
    exact returned

private theorem serves_cons (serves : s.Serves line)
    (others : ∀ k l, rest[k]? = some l → ((s.after 2).after (2 * k)).Serves l) :
    ∀ k l, (line :: rest)[k]? = some l → (s.after (2 * k)).Serves l := by
  intro k l found
  cases k with
  | zero =>
    cases found
    exact serves
  | succ k => exact others k l found

private theorem serves_lines (ready : s.Ready) (waiting : s.bus.interrupts.lines = line :: rest) :
    (∀ k l, (line :: rest)[k]? = some l → (s.after (2 * k)).Serves l) ∧
      s.after (2 * (line :: rest).length) = s.served (line :: rest) := by
  -- Only the state after at least one handler has a closed form: it is awake, with PC below the stack.
  induction rest generalizing s line with
  | nil =>
    obtain ⟨serves,back⟩ := serves_of_ready ready waiting
    refine ⟨serves_cons serves ?_,back⟩
    intro k l found
    cases found
  | cons next rest ih =>
    obtain ⟨serves,back⟩ := serves_of_ready ready waiting
    obtain ⟨others,last⟩ := ih (ready_served ready waiting) (lines_served waiting)
    rw [served_served,← back] at last
    rw [← back] at others
    exact ⟨serves_cons serves others,last⟩

/-- If interrupts are on and some wait, and all handlers do nothing but return, then two steps for
each line enter all of them in their order and bring the system back to where it was, awake or not,
with the requests answered, PC below the stack and 36 clocks gone by for each. -/
theorem drained_of_ready (ready : s.Ready)
    (waits : s.bus.interruptEnable &&& s.bus.interruptFlags &&& 0x1F ≠ 0) :
    let lines := s.bus.interrupts.lines
    let clocks := 36 * lines.length
    lines.Pairwise (· < ·) ∧
    (∀ line, line ∈ lines ↔ s.bus.interruptEnable &&& s.bus.interruptFlags &&& bitMask line.bit ≠ 0) ∧
    (∀ k line, lines[k]? = some line → (s.after (2 * k)).Serves line) ∧
    s.after (2 * lines.length) =
      { cpu := {s.cpu with ime := true, halted := false, cycles := 16, total := s.cpu.total + clocks}
        bus :=
          { s.bus with
            memory := (s.bus.memory.write (s.cpu.regs.sp - 1) (highByte s.cpu.regs.pc)).write
              (s.cpu.regs.sp - 2) (lowByte s.cpu.regs.pc)
            timer := {s.bus.timer with divider := s.bus.timer.divider + UInt16.ofNat clocks}
            interruptFlags := s.bus.interruptFlags &&&
              ~~~(s.bus.interruptEnable &&& s.bus.interruptFlags &&& 0x1F) }
        clock := s.clock + clocks } := by
  intro lines clocks
  obtain ⟨line,rest,waiting⟩ := List.exists_cons_of_ne_nil (Interrupts.lines_ne_nil waits)
  obtain ⟨serves,last⟩ := serves_lines ready waiting
  rw [← waiting] at serves last
  refine ⟨s.bus.interrupts.pairwise_lines,fun line => Interrupts.mem_lines_ofByte,serves,?_⟩
  have flags := Interrupts.foldl_withdraw_lines (s.bus.interruptEnable &&& s.bus.interruptFlags)
    s.bus.interruptFlags
  refine last.trans ?_
  rw [← flags]
  rfl

/-- Asleep, with three of the lines requested and a lone `RETI` for each of them. -/
def crowded : System :=
  { cpu := {regs := {a := 0x42, sp := 0xD000, pc := 0x1234}, ime := true, halted := true}
    bus :=
      { memory := ((Memory.zero.write 0x40 0xD9).write 0x50 0xD9).write 0x60 0xD9
        interruptEnable := 0x1F
        interruptFlags := 0x15 } }

private theorem ready_crowded : crowded.Ready := by
  have handlers : ∀ line ∈ crowded.bus.interrupts.lines,
      crowded.bus.memory.read (vector line) = 0xD9 := by
    decide +kernel
  have apart : ∀ line ∈ crowded.bus.interrupts.lines,
      vector line ≠ crowded.cpu.regs.sp - 1 ∧ vector line ≠ crowded.cpu.regs.sp - 2 := by
    decide +kernel
  exact ⟨rfl,rfl,rfl,rfl,rfl,handlers,by decide,by decide,apart⟩

theorem drained_of_ready_crowded : crowded.Ready ∧ crowded.bus.interrupts.lines = [0,2,4] ∧
    (crowded.after 2).Serves 2 ∧ (crowded.after 6).cpu.regs = crowded.cpu.regs ∧
    (crowded.after 6).bus.interruptFlags = 0 ∧ (crowded.after 6).clock = 108 := by
  have waiting : crowded.bus.interrupts.lines = [0,2,4] := by decide +kernel
  obtain ⟨-,-,serves,last⟩ := drained_of_ready ready_crowded (by decide)
  rw [waiting] at serves last
  have second := serves 1 2 rfl
  change crowded.after 6 = _ at last
  rw [last]
  exact ⟨ready_crowded,waiting,second,rfl,rfl,rfl⟩

end System
end Sm83
