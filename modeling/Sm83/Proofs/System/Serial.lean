import Sm83.Proofs.Memory
import Sm83.Proofs.System.Requests
import Sm83.Proofs.System.Run

/-!
The serial line of a system. All that bears on it are the accesses to the bus and the loads, in their
order; `serial_of_history` reads the bytes sent off that record, for the capture and for a receiver.
-/
namespace Sm83

/-- An operation on a system: a deed, or a look at the bus. -/
inductive Operation
  | deed (d : Deed)
  | read (a : UInt16)

theorem SystemBus.startsTransfer_eq (v : UInt8) :
    startsTransfer v = (v.toNat.testBit 7 && v.toNat.testBit 0) := by
  revert v
  decide +kernel

/-- What bears on the serial line. -/
inductive Mark
  | access (x : Access)
  | load (a : UInt16) (data : List UInt8)

namespace Mark

/-- What the serial data register holds afterwards. -/
def holds (held : UInt8) : Mark → UInt8
  | access x => if x.isWrite && x.addr == Address.serialData then x.data else held
  | load a data =>
    if a ≤ Address.serialData then (data[Address.serialData.toNat - a.toNat]?).getD held else held

/-- A write to the serial control register with bits 7 and 0 both set. -/
def starts : Mark → Bool
  | access x =>
    x.isWrite && x.addr == Address.serialControl && x.data.toNat.testBit 7 && x.data.toNat.testBit 0
  | load _ _ => false

/-- The bytes that are sent, if the serial data register holds `held` before. -/
def sent (held : UInt8) : List Mark → List UInt8
  | [] => []
  | m :: ms => if m.starts then held :: sent (m.holds held) ms else sent (m.holds held) ms

private theorem sent_append (held : UInt8) (ms ns : List Mark) :
    sent held (ms ++ ns) = sent held ms ++ sent (ms.foldl holds held) ns := by
  induction ms generalizing held with
  | nil => rfl
  | cons m ms ih =>
    rw [List.cons_append,sent,sent,List.foldl_cons,ih]
    split <;> rfl

private theorem starts_access (x : Access) : (access x).starts = x.sends := by
  rw [starts,Bool.and_assoc,← SystemBus.startsTransfer_eq,Access.sends]

end Mark

namespace SystemBus
variable {b c d : SystemBus} {ms ns : List Mark}

/-- The marks take the data register and the bytes sent on one bus to those on another. -/
structure Sends (b c : SystemBus) (ms : List Mark) : Prop where
  held : c.memory.read Address.serialData = ms.foldl Mark.holds (b.memory.read Address.serialData)
  serial : c.serial.toList = b.serial.toList ++ Mark.sent (b.memory.read Address.serialData) ms

/-- A receiver is told of the bytes too. -/
structure Transmits (b c : SystemBus) (ms : List Mark) : Prop extends Sends b c ms where
  sink : c.sink.map Array.toList =
    (b.sink.map Array.toList).map (· ++ Mark.sent (b.memory.read Address.serialData) ms)

private theorem transmits_of_eq (memory : c.memory = b.memory) (serial : c.serial = b.serial)
    (sink : c.sink = b.sink) : Transmits b c [] := by
  refine ⟨⟨by rw [memory]; rfl,by rw [serial]; simp [Mark.sent]⟩,?_⟩
  rw [sink]
  cases b.sink <;> simp [Mark.sent]

theorem Sends.trans (first : Sends b c ms) (rest : Sends c d ns) : Sends b d (ms ++ ns) := by
  refine ⟨?_,?_⟩
  · rw [rest.held,first.held,List.foldl_append]
  · rw [rest.serial,first.serial,first.held,Mark.sent_append,List.append_assoc]

theorem Transmits.trans (first : Transmits b c ms) (rest : Transmits c d ns) :
    Transmits b d (ms ++ ns) := by
  refine ⟨first.toSends.trans rest.toSends,?_⟩
  rw [rest.sink,first.sink,first.held,Mark.sent_append,Option.map_map]
  congr 1
  funext bytes
  simp

private theorem transmits_of_silent {m : Mark} (silent : m.starts = false)
    (held : c.memory.read Address.serialData = m.holds (b.memory.read Address.serialData))
    (serial : c.serial = b.serial) (sink : c.sink = b.sink) : Transmits b c [m] := by
  have nothing : Mark.sent (b.memory.read Address.serialData) [m] = [] := by simp [Mark.sent,silent]
  refine ⟨⟨held,by rw [nothing,serial,List.append_nil]⟩,?_⟩
  rw [nothing,sink]
  cases b.sink <;> simp

private theorem transmits_load (b : SystemBus) (a : UInt16) (data : List UInt8) :
    Transmits b (b.load a data) [.load a data] :=
  transmits_of_silent rfl (b.memory.read_load a Address.serialData data) rfl rfl

theorem write_starting (b : SystemBus) {v : UInt8} (starts : startsTransfer v) :
    b.write Address.serialControl v =
      { b with
        memory := b.memory.write Address.serialControl (v &&& 0x7F)
        interruptFlags := b.interruptFlags ||| 0x08
        serial := b.serial.push (b.memory.read Address.serialData)
        sink := b.sink.map (·.push (b.memory.read Address.serialData)) } := by
  change b.writeSerialControl v = _
  rw [writeSerialControl,if_pos starts]
  rfl

private theorem write_idle (b : SystemBus) {v : UInt8} (idle : ¬startsTransfer v) :
    b.write Address.serialControl v = {b with memory := b.memory.write Address.serialControl v} := by
  change b.writeSerialControl v = _
  rw [writeSerialControl,if_neg idle]

private theorem transmits_control (b : SystemBus) (v : UInt8) :
    Transmits b (b.write Address.serialControl v) [.access ⟨Address.serialControl,v,.write⟩] := by
  have apart : Address.serialData ≠ Address.serialControl := by decide
  have started : Mark.starts (.access ⟨Address.serialControl,v,.write⟩) = startsTransfer v :=
    Mark.starts_access _
  by_cases starts : startsTransfer v
  · have one : Mark.sent (b.memory.read Address.serialData) [.access ⟨Address.serialControl,v,.write⟩] =
        [b.memory.read Address.serialData] := by
      rw [Mark.sent,started,if_pos starts,Mark.sent]
    rw [b.write_starting starts]
    refine ⟨⟨?_,?_⟩,?_⟩
    · rw [Memory.read_write,if_neg apart]
      rfl
    · rw [one,Array.toList_push]
    · rw [one,Option.map_map,Option.map_map]
      congr 1
      funext bytes
      exact Array.toList_push
  · rw [b.write_idle starts]
    refine transmits_of_silent ?_ ?_ rfl rfl
    · rw [started]
      exact Bool.eq_false_iff.mpr starts
    · rw [Memory.read_write,if_neg apart]
      rfl

theorem transmits_write (b : SystemBus) (a : UInt16) (v : UInt8) :
    Transmits b (b.write a v) [.access ⟨a,v,.write⟩] := by
  have off (elsewhere : a ≠ Address.serialControl) : Mark.starts (.access ⟨a,v,.write⟩) = false := by
    simp [Mark.starts,beq_false_of_ne elsewhere]
  by_cases control : a = Address.serialControl
  · subst control
    exact b.transmits_control v
  by_cases data : a = Address.serialData
  · subst data
    refine transmits_of_silent (off control) ?_ rfl rfl
    change (b.memory.write Address.serialData v).read Address.serialData = v
    rw [Memory.read_write,if_pos rfl]
  · have kept : Mark.holds (b.memory.read Address.serialData) (.access ⟨a,v,.write⟩) =
        b.memory.read Address.serialData := by
      simp [Mark.holds,beq_false_of_ne data]
    have same : (b.write a v).memory.read Address.serialData = b.memory.read Address.serialData ∧
        (b.write a v).serial = b.serial ∧ (b.write a v).sink = b.sink := by
      unfold SystemBus.write
      split
      case h_1 => exact absurd rfl control
      case h_8 => exact ⟨by rw [Memory.read_write,if_neg (Ne.symm data)],rfl,rfl⟩
      all_goals exact ⟨rfl,rfl,rfl⟩
    exact transmits_of_silent (off control) (same.1.trans kept.symm) same.2.1 same.2.2

private theorem transmits_follow (b : SystemBus) (x : Access) :
    Transmits b (Bus.follow b x) [.access x] := by
  obtain ⟨a,v,kind⟩ := x
  cases kind with
  | read => exact transmits_of_silent rfl rfl rfl rfl
  | write => exact b.transmits_write a v

theorem transmits_foldl (b : SystemBus) (l : List Access) :
    Transmits b (l.foldl Bus.follow b) (l.map .access) := by
  induction l generalizing b with
  | nil => exact transmits_of_eq rfl rfl rfl
  | cons x l ih => exact (b.transmits_follow x).trans (ih _)

theorem tick_line (b : SystemBus) (n : Nat) :
    (b.tick n).memory = b.memory ∧ (b.tick n).serial = b.serial ∧ (b.tick n).sink = b.sink := by
  rw [tick_eq]
  exact ⟨rfl,rfl,rfl⟩

end SystemBus

namespace System
open SystemBus
variable {s : System}

def runAccesses (s : System) (budget : Nat) (done : System → Bool) : List Access :=
  (runUntil ⟨fun s l => l ++ s.accesses,fun t l => (done t,l)⟩ (s.deadline budget) s []).2.2

def marks (s : System) : Operation → List Mark
  | .read a => [.access ⟨a,(Bus.read s.bus a).1,.read⟩]
  | .deed (.move .step) => s.accesses.map .access
  | .deed (.move (.load a data)) => [.load a data]
  | .deed (.move (.write a v)) => [.access ⟨a,v,.write⟩]
  | .deed (.run budget done) => (s.runAccesses budget done).map .access
  | .deed _ => []

def operate (s : System) : Operation → System
  | .deed d => s.undergo d
  | .read a => {s with bus := (Bus.read s.bus a).2}

def operateAll (s : System) (ops : List Operation) : System := ops.foldl operate s

def journal (s : System) : List Operation → List Mark
  | [] => []
  | op :: ops => s.marks op ++ (s.operate op).journal ops

theorem transmits_step (s : System) : Transmits s.bus s.step.2.bus (s.accesses.map .access) := by
  have granted : Transmits s.bus s.granted [] := by
    rw [System.granted]
    split <;> exact transmits_of_eq rfl rfl rfl
  have acted : Transmits s.bus (act s.toMachine).2.bus (s.accesses.map .access) := by
    rw [act_bus]
    exact granted.trans (transmits_foldl _ _)
  obtain ⟨memory,serial,sink⟩ := (act s.toMachine).2.bus.tick_line s.ticks
  have ticked := acted.trans (transmits_of_eq memory serial sink)
  rw [step_bus]
  rw [List.append_nil] at ticked
  exact ticked

theorem transmits_run (s : System) (budget : Nat) (done : System → Bool) :
    Transmits s.bus (s.run budget done).2.bus ((s.runAccesses budget done).map .access) := by
  let o : Observer (List Access) := ⟨fun s l => l ++ s.accesses,fun t l => (done t,l)⟩
  have alike := runUntil_alike (o := ⟨fun _ _ => (),fun t _ => (done t,())⟩) (p := o)
    (R := fun _ _ _ => True) (s := s) (w := ()) (fun s t n w v _ _ => ⟨rfl,fun _ => trivial⟩)
    (s.deadline budget) [] trivial
  have told := runUntil_invariant (o := o) (s := s) (w := [])
    (I := fun t l => Transmits s.bus t.bus (l.map .access)) (fun _ _ => rfl)
    (fun t l told => by
      rw [List.map_append]
      exact told.trans t.transmits_step)
    (s.deadline budget) (transmits_of_eq rfl rfl rfl)
  rw [← alike.2] at told
  exact told

theorem transmits_operate (s : System) {op : Operation} (other : op ≠ .deed .attachSink) :
    Transmits s.bus (s.operate op).bus (s.marks op) := by
  cases op with
  | read a => exact s.bus.transmits_follow ⟨a,_,.read⟩
  | deed d =>
    cases d with
    | move m =>
      cases m with
      | step => exact s.transmits_step
      | load a data => exact s.bus.transmits_load a data
      | write a v => exact s.bus.transmits_write a v
      | request | acknowledge => exact transmits_of_eq rfl rfl rfl
    | run budget done => exact s.transmits_run budget done
    | tick n =>
      obtain ⟨memory,serial,sink⟩ := s.bus.tick_line n
      exact transmits_of_eq memory serial sink
    | attachSink => exact absurd rfl other
    | set | wake | reset | skipBoot => exact transmits_of_eq rfl rfl rfl

private theorem sends_operate (s : System) (op : Operation) :
    Sends s.bus (s.operate op).bus (s.marks op) := by
  by_cases attaches : op = .deed .attachSink
  · subst attaches
    exact ⟨rfl,(List.append_nil _).symm⟩
  · exact (s.transmits_operate attaches).toSends

private theorem sends_journal (s : System) (ops : List Operation) :
    Sends s.bus (s.operateAll ops).bus (s.journal ops) := by
  induction ops generalizing s with
  | nil => exact (transmits_of_eq rfl rfl rfl).toSends
  | cons op ops ih => exact (s.sends_operate op).trans (ih _)

theorem transmits_journal (s : System) {ops : List Operation} (others : .deed .attachSink ∉ ops) :
    Transmits s.bus (s.operateAll ops).bus (s.journal ops) := by
  induction ops generalizing s with
  | nil => exact transmits_of_eq rfl rfl rfl
  | cons op ops ih =>
    rw [List.mem_cons,not_or] at others
    exact (s.transmits_operate (Ne.symm others.1)).trans (ih _ others.2)

/-- The bytes sent over the serial line, whatever has been done to a system, are those that stood in
the data register whenever a write to the control register started a transfer. A receiver has
got those sent since it was attached. -/
theorem serial_of_history (ops : List Operation) :
    let s := powerOn.operateAll ops
    let log := powerOn.journal ops
    s.bus.serial.toList = Mark.sent 0 log ∧
    s.bus.read Address.serialData = log.foldl Mark.holds 0 ∧
    (.deed .attachSink ∉ ops → s.bus.sink = none) ∧
    (∀ before after, ops = before ++ .deed .attachSink :: after → .deed .attachSink ∉ after →
      let t := powerOn.operateAll before
      let part := Mark.sent (t.bus.read Address.serialData) ((t.operate (.deed .attachSink)).journal after)
      s.bus.sink = some part.toArray ∧ s.bus.serial.toList = t.bus.serial.toList ++ part) ∧
    ∀ (b : SystemBus) (v : UInt8),
      let c := b.write Address.serialControl v
      (v.toNat.testBit 7 ∧ v.toNat.testBit 0 →
        c.serial = b.serial.push (b.read Address.serialData) ∧
        c.sink = b.sink.map (·.push (b.read Address.serialData)) ∧
        c.read Address.serialControl = v &&& 0x7F ∧
        c.read Address.serialData = b.read Address.serialData ∧
        c.interruptFlags = b.interruptFlags ||| 0x08) ∧
      (¬(v.toNat.testBit 7 ∧ v.toNat.testBit 0) →
        c.serial = b.serial ∧ c.sink = b.sink ∧
        c.read Address.serialControl = v ∧
        c.read Address.serialData = b.read Address.serialData ∧
        c.interruptFlags = b.interruptFlags) := by
  intro s log
  have apart : Address.serialData ≠ Address.serialControl := by decide
  have blank : powerOn.bus.memory.read Address.serialData = 0 := Memory.read_zero _
  obtain ⟨held,serial⟩ := powerOn.sends_journal ops
  rw [blank] at held serial
  refine ⟨serial,held,?_,?_,?_⟩
  · intro others
    have sink := (powerOn.transmits_journal others).sink
    exact Option.map_eq_none_iff.mp sink
  · rintro before after rfl others t part
    have attached := (t.operate (.deed .attachSink)).transmits_journal others
    have reached : s = (t.operate (.deed .attachSink)).operateAll after := by
      simp only [s,t,operateAll,List.foldl_append,List.foldl_cons]
    rw [reached]
    refine ⟨?_,attached.serial⟩
    have told := attached.sink
    change _ = some part at told
    obtain ⟨bytes,sink,same⟩ := Option.map_eq_some_iff.mp told
    rw [sink,← same]
  · intro b v c
    have started : startsTransfer v ↔ v.toNat.testBit 7 ∧ v.toNat.testBit 0 := by
      rw [startsTransfer_eq,Bool.and_eq_true]
    constructor
    · intro bits
      have same : c = _ := b.write_starting (started.mpr bits)
      rw [same]
      refine ⟨rfl,rfl,?_,?_,rfl⟩
      · exact (Memory.read_write _ _ _ _).trans (if_pos rfl)
      · exact (Memory.read_write _ _ _ _).trans (if_neg apart)
    · intro bits
      have same : c = _ := b.write_idle fun starts => bits (started.mp starts)
      rw [same]
      refine ⟨rfl,rfl,?_,?_,rfl⟩
      · exact (Memory.read_write _ _ _ _).trans (if_pos rfl)
      · exact (Memory.read_write _ _ _ _).trans (if_neg apart)

end System
end Sm83
