import Sm83.Proofs.Interrupts
import Sm83.Proofs.System.Host

/-!
The requests for interrupts. `interruptFlags_step` says what a step makes of them: the handler that
is entered takes one away, a byte that is sent and a reload of TIMA add theirs, and a write replaces
them. So a line is requested exactly if it has been and nothing has withdrawn it since
(`requested_performAll`).
-/
namespace Sm83

namespace Access

def setsFlags (x : Access) : Bool := x.isWrite && x.addr == Address.interruptFlags

/-- A write that sends a byte over the serial line. -/
def sends (x : Access) : Bool :=
  x.isWrite && x.addr == Address.serialControl && SystemBus.startsTransfer x.data

def flags (f : UInt8) (x : Access) : UInt8 :=
  if x.setsFlags then x.data &&& 0x1F else if x.sends then f ||| serialInterrupt else f

private theorem flags_of_read {x : Access} (reads : x.isWrite = false) (f : UInt8) : flags f x = f := by
  simp [flags,setsFlags,sends,reads]

private theorem setsFlags_iff {x : Access} :
    x.setsFlags ↔ ∃ v, x = ⟨Address.interruptFlags,v,.write⟩ := by
  obtain ⟨a,v,kind⟩ := x
  simp [setsFlags,isWrite,and_comm]

private theorem flags_setsFlags (f v : UInt8) :
    flags f ⟨Address.interruptFlags,v,.write⟩ = v &&& 0x1F := rfl

private theorem foldl_filter_isWrite (f : UInt8) (l : List Access) :
    (l.filter isWrite).foldl flags f = l.foldl flags f := by
  induction l generalizing f with
  | nil => rfl
  | cons x l ih =>
    cases write : x.isWrite with
    | true => rw [List.filter_cons_of_pos write,List.foldl_cons,List.foldl_cons,ih]
    | false =>
      rw [List.filter_cons_of_neg (by simp [write]),List.foldl_cons,ih,flags_of_read write]

private theorem foldl_flags {l : List Access} (apart : ∀ v, ⟨Address.interruptFlags,v,.write⟩ ∉ l)
    (f : UInt8) : l.foldl flags f = f ||| if l.any sends then serialInterrupt else 0 := by
  induction l generalizing f with
  | nil => exact (UInt8.or_zero).symm
  | cons x l ih =>
    have other : x.setsFlags = false := by
      apply Bool.eq_false_iff.mpr
      intro sets
      obtain ⟨v,rfl⟩ := setsFlags_iff.mp sets
      exact apart v List.mem_cons_self
    have rest := ih fun v member => apart v (List.mem_cons_of_mem _ member)
    rw [List.foldl_cons,rest,List.any_cons]
    cases sent : x.sends with
    | false => simp [flags,other,sent]
    | true =>
      simp only [flags,other,sent,Bool.true_or,Bool.false_eq_true,if_false,if_true]
      split
      · rw [UInt8.or_assoc,UInt8.or_self]
      · exact UInt8.or_zero

private theorem flags_beside {x : Access} (f : UInt8)
    (beside : x.addr = Address.interruptFlags + 1 ∨ Address.interruptFlags = x.addr + 1) :
    flags f x = f ∧ x.sends = false := by
  have places : x.addr = 0xFF10 ∨ x.addr = 0xFF0E := by
    rcases beside with above | below
    · exact .inl above
    · right
      have lower : x.addr = Address.interruptFlags - 1 := by
        rw [below,UInt16.add_sub_cancel]
      exact lower
  obtain ⟨a,v,kind⟩ := x
  rcases places with rfl | rfl <;> cases kind <;> exact ⟨rfl,rfl⟩

private theorem foldl_flags_of_mem {l : List Access} (stores : Stores l) {v : UInt8}
    (member : ⟨Address.interruptFlags,v,.write⟩ ∈ l) (f : UInt8) :
    l.foldl flags f = v &&& 0x1F ∧ l.any sends = false := by
  have written : ⟨Address.interruptFlags,v,.write⟩ ∈ l.filter isWrite :=
    List.mem_filter.mpr ⟨member,rfl⟩
  have unread : l.any sends = (l.filter isWrite).any sends := by
    rw [List.any_filter]
    congr 1
    funext x
    cases write : x.isWrite <;> simp [sends,write]
  rw [← foldl_filter_isWrite,unread]
  rcases stores with few | ⟨x,y,two,beside⟩
  · obtain ⟨x,one⟩ := List.length_eq_one_iff.mp
      (Nat.le_antisymm few (List.length_pos_of_mem written))
    rw [one,List.mem_singleton] at written
    rw [one,← written]
    exact ⟨flags_setsFlags f v,rfl⟩
  · rw [two] at written ⊢
    rcases List.mem_cons.mp written with rfl | last
    · obtain ⟨kept,silent⟩ := flags_beside (v &&& 0x1F) beside
      refine ⟨kept,?_⟩
      rw [List.any_cons,List.any_cons,silent]
      rfl
    · obtain rfl := List.mem_singleton.mp last
      obtain ⟨-,silent⟩ := flags_beside f beside.symm
      refine ⟨flags_setsFlags (flags f x) v,?_⟩
      rw [List.any_cons,silent]
      rfl

end Access

namespace System
variable {s : System} {line : Line}

def Writes (s : System) (a : UInt16) (v : UInt8) : Prop := ⟨a,v,.write⟩ ∈ s.accesses

/-- The requests that a step takes away by entering a handler. -/
def dispatched (s : System) : UInt8 :=
  match s.accepted with
  | some line => bitMask line.bit
  | none => 0

/-- The requests that a step makes by sending a byte, and by a reload of TIMA. -/
def sent (s : System) : UInt8 := if s.accesses.any Access.sends then serialInterrupt else 0

def timed (s : System) : UInt8 := if s.occurrences.any Occurrence.isReloaded then timerInterrupt else 0

private theorem follow_interruptFlags (b : SystemBus) (x : Access) :
    (Bus.follow b x).interruptFlags = x.flags b.interruptFlags := by
  obtain ⟨a,v,kind⟩ := x
  cases kind with
  | read => exact (Access.flags_of_read rfl _).symm
  | write =>
    change (b.write a v).interruptFlags = _
    unfold SystemBus.write
    split
    case h_1 =>
      change (b.writeSerialControl v).interruptFlags =
        if SystemBus.startsTransfer v then b.interruptFlags ||| serialInterrupt else b.interruptFlags
      unfold SystemBus.writeSerialControl
      split <;> rfl
    case h_8 serial div tima tma tac flags enable =>
      have unset : (a == Address.interruptFlags) = false := beq_false_of_ne flags
      have unsent : (a == Address.serialControl) = false := beq_false_of_ne serial
      simp [Access.flags,Access.setsFlags,Access.sends,unset,unsent]
    all_goals rfl

private theorem foldl_follow_interruptFlags (b : SystemBus) (l : List Access) :
    (l.foldl Bus.follow b).interruptFlags = l.foldl Access.flags b.interruptFlags := by
  induction l generalizing b with
  | nil => rfl
  | cons x l ih => rw [List.foldl_cons,ih,follow_interruptFlags,List.foldl_cons]

private theorem granted_interruptFlags (s : System) :
    s.granted.interruptFlags = s.bus.interruptFlags &&& ~~~s.dispatched := by
  rw [granted,dispatched]
  cases s.accepted with
  | some line => rfl
  | none => exact UInt8.and_neg_one.symm

theorem interruptFlags_step (s : System) : s.step.2.bus.interruptFlags =
    s.accesses.foldl Access.flags (s.bus.interruptFlags &&& ~~~s.dispatched) ||| s.timed := by
  rw [requests_step,act_bus,foldl_follow_interruptFlags,granted_interruptFlags,timed]
  split
  · rfl
  · exact UInt8.or_zero.symm

private theorem interruptFlags_of_apart (apart : ∀ v, ¬s.Writes Address.interruptFlags v) :
    s.step.2.bus.interruptFlags =
      s.bus.interruptFlags &&& ~~~s.dispatched ||| s.sent ||| s.timed := by
  rw [interruptFlags_step,Access.foldl_flags apart]
  rfl

private theorem interruptFlags_of_writes {v : UInt8} (written : s.Writes Address.interruptFlags v) :
    s.step.2.bus.interruptFlags = v &&& 0x1F ||| s.timed ∧ s.sent = 0 := by
  obtain ⟨last,silent⟩ := Access.foldl_flags_of_mem s.stores_accesses written
    (s.bus.interruptFlags &&& ~~~s.dispatched)
  rw [interruptFlags_step,last,sent,silent]
  exact ⟨rfl,rfl⟩

/-- The move takes the request of the line away, if there is one. -/
def Withdraws (s : System) (line : Line) : Move → Prop
  | .step => s.accepted = some line ∨ ∃ v, s.Writes Address.interruptFlags v ∧ line.isIn v = false
  | .write a v => a = Address.interruptFlags ∧ line.isIn v = false
  | .acknowledge l => l = line.bit
  | .load _ _ | .request _ => False

/-- The move requests the interrupt of the line, whether or not it was requested before. -/
def Requests (s : System) (line : Line) : Move → Prop
  | .step => (∃ v, s.Writes Address.interruptFlags v ∧ line.isIn v) ∨ line.isIn s.sent ∨ line.isIn s.timed
  | .write a v => a = Address.interruptFlags ∧ line.isIn v ∨
      a = Address.serialControl ∧ SystemBus.startsTransfer v ∧ line.isIn serialInterrupt
  | .request mask => line.isIn mask
  | .load _ _ | .acknowledge _ => False

def requested (s : System) (line : Line) : Prop := line.isIn s.bus.interruptFlags

private theorem isIn_dispatched (s : System) (line : Line) (f : UInt8) :
    line.isIn (f &&& ~~~s.dispatched) ↔ line.isIn f ∧ s.accepted ≠ some line := by
  rw [dispatched]
  cases s.accepted with
  | none => simp
  | some l =>
    have same : line.bit = l.bit ↔ l = line :=
      ⟨fun bits => (Line.bit_inj bits).symm,fun lines => by rw [lines]⟩
    simp [Line.isIn_remove,same]

private theorem requested_of_writes {v : UInt8} (written : s.Writes Address.interruptFlags v)
    (line : Line) : s.step.2.requested line ↔ line.isIn v ∨ line.isIn s.timed := by
  rw [requested,(interruptFlags_of_writes written).1,Line.isIn_or,Line.isIn_known,Bool.or_eq_true]

theorem requested_step (s : System) (line : Line) : s.step.2.requested line ↔
    s.Requests line .step ∨ s.requested line ∧ ¬s.Withdraws line .step := by
  by_cases apart : ∀ v, ¬s.Writes Address.interruptFlags v
  · have flags : s.step.2.requested line ↔
        (line.isIn s.bus.interruptFlags ∧ s.accepted ≠ some line ∨ line.isIn s.sent) ∨
          line.isIn s.timed := by
      rw [requested,interruptFlags_of_apart apart,Line.isIn_or,Line.isIn_or,Bool.or_eq_true,
        Bool.or_eq_true,isIn_dispatched]
    rw [flags]
    simp only [Requests,Withdraws,requested,apart,false_and,exists_false,false_or,or_false]
    tauto
  · obtain ⟨v,written⟩ := Classical.not_forall_not.mp apart
    have unsent : line.isIn s.sent = false := by
      rw [(interruptFlags_of_writes written).2]
      exact Nat.zero_testBit _
    constructor
    · intro after
      rcases (requested_of_writes written line).mp after with set | timed
      · exact .inl (.inl ⟨v,written,set⟩)
      · exact .inl (.inr (.inr timed))
    · rintro ((⟨w,again,set⟩ | sent | timed) | ⟨-,kept⟩)
      · exact (requested_of_writes again line).mpr (.inl set)
      · cases unsent.symm.trans sent
      · exact (requested_of_writes written line).mpr (.inr timed)
      · apply (requested_of_writes written line).mpr
        left
        apply Bool.of_not_eq_false
        intro clear
        exact kept (.inr ⟨v,written,clear⟩)

private theorem requested_write (s : System) (line : Line) (a : UInt16) (v : UInt8) :
    (s.perform (.write a v)).requested line ↔
      s.Requests line (.write a v) ∨ s.requested line ∧ ¬s.Withdraws line (.write a v) := by
  have apart : Address.interruptFlags ≠ Address.serialControl := by decide
  have flags : (s.perform (.write a v)).bus.interruptFlags =
      Access.flags s.bus.interruptFlags ⟨a,v,.write⟩ := follow_interruptFlags s.bus ⟨a,v,.write⟩
  rw [requested,flags]
  by_cases own : a = Address.interruptFlags
  · subst own
    rw [Access.flags_setsFlags,Line.isIn_known]
    simp [Requests,Withdraws,apart]
  · have kept : Access.flags s.bus.interruptFlags ⟨a,v,.write⟩ =
        if a = Address.serialControl ∧ SystemBus.startsTransfer v
        then s.bus.interruptFlags ||| serialInterrupt else s.bus.interruptFlags := by
      simp [Access.flags,Access.setsFlags,Access.sends,Access.isWrite,own]
    rw [kept]
    split
    · rename_i sends
      obtain ⟨rfl,starts⟩ := sends
      simp [Requests,Withdraws,requested,own,starts,Line.isIn_or,or_comm]
    · rename_i silent
      have quiet : ¬(a = Address.serialControl ∧ SystemBus.startsTransfer v ∧
          line.isIn serialInterrupt) := fun sends => silent ⟨sends.1,sends.2.1⟩
      simp only [Requests,Withdraws,requested,own,quiet,false_and,or_false,false_or,not_false_eq_true,
        and_true]

theorem requested_perform (s : System) (line : Line) (move : Move) :
    (s.perform move).requested line ↔
      s.Requests line move ∨ s.requested line ∧ ¬s.Withdraws line move := by
  cases move with
  | step => exact s.requested_step line
  | load a data => simp [perform,requested,SystemBus.load,Requests,Withdraws]
  | write a v => exact s.requested_write line a v
  | request mask =>
    change line.isIn (s.bus.interruptFlags ||| mask &&& 0x1F) ↔ _
    rw [Line.isIn_or,Line.isIn_known,Bool.or_eq_true,or_comm]
    simp only [Requests,Withdraws,requested,not_false_eq_true,and_true]
  | acknowledge l =>
    change line.isIn (s.bus.interruptFlags &&& ~~~bitMask l) ↔ _
    rw [Line.isIn_remove,Bool.and_eq_true,bne_iff_ne,ne_comm]
    simp only [Requests,Withdraws,requested,false_or,ne_eq]

/-- No move withdraws the request of the line. -/
def Keeps (s : System) (line : Line) : List Move → Prop
  | [] => True
  | move :: moves => ¬s.Withdraws line move ∧ (s.perform move).Keeps line moves

/-- A move requests the line, and none after it withdraws the request. -/
def Obtains (s : System) (line : Line) : List Move → Prop
  | [] => False
  | move :: moves => s.Requests line move ∧ (s.perform move).Keeps line moves ∨
      (s.perform move).Obtains line moves

theorem requested_performAll (s : System) (line : Line) (moves : List Move) :
    (s.performAll moves).requested line ↔
      s.Obtains line moves ∨ s.requested line ∧ s.Keeps line moves := by
  induction moves generalizing s with
  | nil => simp [performAll,Obtains,Keeps]
  | cons move moves ih =>
    have rest := ih (s.perform move)
    rw [requested_perform] at rest
    change ((s.perform move).performAll moves).requested line ↔ _
    rw [rest,Obtains,Keeps]
    tauto

/-- No bits but those of lines are set. -/
def Known (f : UInt8) : Prop := f &&& 0x1F = f

private theorem known_masked (v : UInt8) : Known (v &&& 0x1F) := UInt8.and_assoc v 0x1F 0x1F

theorem Known.and {f : UInt8} (known : Known f) (g : UInt8) : Known (f &&& g) := by
  have same : f &&& g &&& 0x1F = f &&& 0x1F &&& g := by
    rw [UInt8.and_assoc,UInt8.and_assoc,UInt8.and_comm g]
  rw [Known,same,known]

theorem Known.or {f g : UInt8} (first : Known f) (second : Known g) : Known (f ||| g) := by
  have distributed : (f ||| g) &&& 0x1F = f &&& 0x1F ||| g &&& 0x1F := by
    apply UInt8.toNat_inj.mp
    simp only [UInt8.toNat_and,UInt8.toNat_or,Nat.and_or_distrib_right]
  rw [Known,distributed,first,second]

private theorem known_flags {f : UInt8} (known : Known f) (x : Access) : Known (x.flags f) := by
  unfold Access.flags
  split
  · exact known_masked _
  · split
    · exact known.or rfl
    · exact known

private theorem known_foldl_flags {f : UInt8} (known : Known f) (l : List Access) :
    Known (l.foldl Access.flags f) := by
  induction l generalizing f with
  | nil => exact known
  | cons x l ih => exact ih (known_flags known x)

private theorem known_tick {b : SystemBus} (known : Known b.interruptFlags) (n : Nat) :
    Known (b.tick n).interruptFlags := by
  rw [tick_interruptFlags]
  split
  · exact known.or rfl
  · exact known

theorem known_step (s : System) (known : Known s.bus.interruptFlags) :
    Known s.step.2.bus.interruptFlags := by
  have acted : Known (act s.toMachine).2.bus.interruptFlags := by
    rw [act_bus,foldl_follow_interruptFlags,granted_interruptFlags]
    exact known_foldl_flags (known.and _) _
  rw [step_bus]
  exact known_tick acted _

theorem known_host (s : System) (d : Deed) (timed : d.takesSteps = false)
    (known : Known s.bus.interruptFlags) : Known (s.undergo d).bus.interruptFlags := by
  cases d with
  | move m =>
    cases m with
    | step => cases timed
    | load => exact known
    | write a v =>
      have flags := follow_interruptFlags s.bus ⟨a,v,.write⟩
      change Known (Bus.follow s.bus ⟨a,v,.write⟩).interruptFlags
      rw [flags]
      exact known_flags known _
    | request mask => exact known.or (known_masked mask)
    | acknowledge l => exact known.and _
  | run => cases timed
  | tick n => exact known_tick known n
  | attachSink | set | wake | reset | skipBoot => exact known

private theorem accepted_iff_enters (s : System) (line : Line) :
    s.accepted = some line ↔ ∃ t, s.Enters line t := by
  constructor
  · intro accepted
    exact ⟨_,enters_of_accepted accepted⟩
  · rintro ⟨t,entered⟩
    exact accepted_of_enters entered

/-- The requests of a system, whatever a host has done to it. A step takes away the request whose
handler it enters, and adds those of a sent byte and of a reload, unless it writes the register. A
line is requested after some moves exactly if one of them requests it, or it was requested before,
and nothing withdraws the request from then on. -/
theorem interruptFlags_of_history (deeds : List Deed) :
    let s := powerOn.undergoAll deeds
    let before := s.bus.interruptFlags
    let after := s.step.2.bus.interruptFlags
    (∀ line, s.accepted = some line ↔ ∃ t, s.Enters line t) ∧
    ((∀ v, ¬s.Writes Address.interruptFlags v) →
      after = before &&& ~~~s.dispatched ||| s.sent ||| s.timed) ∧
    (∀ v, s.Writes Address.interruptFlags v → after = v &&& 0x1F ||| s.timed) ∧
    (∀ (line : Line) (moves : List Move), (s.performAll moves).requested line ↔
      s.Obtains line moves ∨ s.requested line ∧ s.Keeps line moves) ∧
    before < 0x20 ∧ s.bus.read Address.interruptFlags &&& 0xE0 = 0xE0 := by
  intro s before after
  have known : Known before :=
    undergoAll_induction (motive := fun s => Known s.bus.interruptFlags) rfl (fun _ => known_step _)
      known_host deeds
  have small : ∀ b, Known b → b < 0x20 := by
    unfold Known
    decide +kernel
  have high : ∀ b : UInt8, (0xE0 ||| b) &&& 0xE0 = 0xE0 := by decide +kernel
  refine ⟨s.accepted_iff_enters,interruptFlags_of_apart,?_,s.requested_performAll,?_,?_⟩
  · intro v written
    exact (interruptFlags_of_writes written).1
  · exact small before known
  · exact high before

end System
end Sm83
