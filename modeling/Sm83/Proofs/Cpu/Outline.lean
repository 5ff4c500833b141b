import Sm83.Proofs.Cpu.Step

/-!
The outline of an instruction: the bytes that it fetches at PC, the places that it goes to for its
data, the internal steps that it takes, and where it leaves PC. Main statement: `outline_execute`.
-/
namespace Sm83

namespace Access

def fetches (a : UInt16) : List UInt8 → List Access
  | [] => []
  | b :: bs => ⟨a,b,.read⟩ :: fetches (a + 1) bs

/-- Writes of a word below `sp`, high byte first. -/
def pushes (sp w : UInt16) : List Access := [⟨sp - 1,highByte w,.write⟩,⟨sp - 1 - 1,lowByte w,.write⟩]

def popped : List Access → UInt16
  | [x,y] => word y.data x.data
  | _ => 0

def place (x : Access) : AccessKind × UInt16 := (x.kind,x.addr)

theorem length_fetches (a : UInt16) (bs : List UInt8) : (fetches a bs).length = bs.length := by
  induction bs generalizing a with
  | nil => rfl
  | cons b bs ih => rw [fetches,List.length_cons,List.length_cons,ih]

end Access

def Flags.admits (f : Flags) (cond : Option Cond) : Bool := cond.all fun x => x.holds f

def Operand.places (kind : AccessKind) (r : Registers) : Operand → List (AccessKind × UInt16)
  | reg _ => []
  | atHL => [(kind,r.hl)]

def Pointer.target (r : Registers) : Pointer → UInt16
  | bc => r.bc | de => r.de | hlUp | hlDown => r.hl

def Registers.pushPlaces (r : Registers) : List (AccessKind × UInt16) :=
  [(.write,r.sp - 1),(.write,r.sp - 1 - 1)]

def Registers.popPlaces (r : Registers) : List (AccessKind × UInt16) := [(.read,r.sp),(.read,r.sp + 1)]

def BitInstr.places (r : Registers) : BitInstr → List (AccessKind × UInt16)
  | test _ o => o.places .read r
  | shift _ o | reset _ o | set _ o => o.places .read r ++ o.places .write r

def operandByte (bytes : List UInt8) : UInt8 := bytes.getD 0 0
def operandWord (bytes : List UInt8) : UInt16 := word (bytes.getD 1 0) (bytes.getD 0 0)

namespace Instr

/-- Where an instruction goes for its data, by the registers as it starts and the bytes that follow
its opcode. -/
def places (r : Registers) (bytes : List UInt8) : Instr → List (AccessKind × UInt16)
  | load dst src => src.places .read r ++ dst.places .write r
  | loadImm dst => dst.places .write r
  | storeVia p => [(.write,p.target r)]
  | loadVia p => [(.read,p.target r)]
  | storeHigh => [(.write,word 0xFF (operandByte bytes))]
  | loadHigh => [(.read,word 0xFF (operandByte bytes))]
  | storeHighC => [(.write,word 0xFF r.c)]
  | loadHighC => [(.read,word 0xFF r.c)]
  | storeAbs => [(.write,operandWord bytes)]
  | loadAbs => [(.read,operandWord bytes)]
  | storeSP => [(.write,operandWord bytes),(.write,operandWord bytes + 1)]
  | push _ | rst _ => r.pushPlaces
  | pop _ | reti => r.popPlaces
  | alu _ src => src.places .read r
  | inc o | dec o => o.places .read r ++ o.places .write r
  | call cond => if r.flags.admits cond then r.pushPlaces else []
  | ret cond => if r.flags.admits cond then r.popPlaces else []
  | extended => (BitInstr.decode (operandByte bytes)).places r
  | _ => []

/-- The machine cycles of an instruction in which the bus rests. -/
def internalSteps (f : Flags) : Instr → Nat
  | loadSP | loadOffset | push _ | incPair _ | decPair _ | addHL _ | rst _ | reti | ret none => 1
  | addSP => 2
  | jump cond | jumpRel cond | call cond => if f.admits cond then 1 else 0
  | ret (some cond) => if f.admits (some cond) then 2 else 1
  | _ => 0

/-- The instruction sends PC elsewhere than to the next one in memory. -/
def transfers (f : Flags) : Instr → Bool
  | jump cond | jumpRel cond | call cond | ret cond => f.admits cond
  | jumpHL | rst _ | reti => true
  | _ => false

def calls (f : Flags) : Instr → Bool
  | call cond => f.admits cond
  | rst _ => true
  | _ => false

/-- Where an instruction leaves PC, if the next one in memory starts at `next`. -/
def destination (r : Registers) (bytes : List UInt8) (next : UInt16) (data : List Access) :
    Instr → UInt16
  | jump cond | call cond => if r.flags.admits cond then operandWord bytes else next
  | jumpRel cond => if r.flags.admits cond then next + signExtend (operandByte bytes) else next
  | jumpHL => r.hl
  | rst target => target.toUInt16
  | ret cond => if r.flags.admits cond then Access.popped data else next
  | reti => Access.popped data
  | _ => next

def isEncoded : Instr → Bool
  | load .atHL .atHL | loadPair .pc | pop .pc | incPair .pc | decPair .pc => false
  | _ => true

theorem isEncoded_of_decode {op : UInt8} {i : Instr} (decoded : decode op = some i) : i.isEncoded := by
  have all : ∀ op, (decode op).all isEncoded := by decide +kernel
  have encoded := all op
  rw [decoded] at encoded
  exact encoded

theorem places_pc (i : Instr) (r : Registers) (bytes : List UInt8) (a : UInt16) :
    i.places {r with pc := a} bytes = i.places r bytes := by
  cases i <;> rfl

private theorem destination_pc (i : Instr) (r : Registers) (bytes : List UInt8) (next : UInt16)
    (data : List Access) (a : UInt16) :
    i.destination {r with pc := a} bytes next data = i.destination r bytes next data := by
  cases i <;> rfl

theorem destination_of_not_transfers {i : Instr} {r : Registers} {bytes : List UInt8} {next : UInt16}
    {data : List Access} (stays : i.transfers r.flags = false) :
    i.destination r bytes next data = next := by
  cases i with
  | jump cond | jumpRel cond | call cond | ret cond => exact if_neg (Bool.eq_false_iff.mp stays)
  | jumpHL | rst | reti => cases stays
  | _ => rfl

end Instr

namespace Machine
variable {σ : Type} [Bus σ]

def passed (m : Machine σ) : Machine σ :=
  ⟨{m.cpu.charge with regs.pc := m.cpu.regs.pc + 1},(Bus.read m.bus m.cpu.regs.pc).2⟩

def skip : Nat → Machine σ → Machine σ
  | 0,m => m
  | n + 1,m => skip n m.passed

def stream : Nat → Machine σ → List UInt8
  | 0,_ => []
  | n + 1,m => m.opcode :: stream n m.passed

theorem length_stream (n : Nat) (m : Machine σ) : (m.stream n).length = n := by
  induction n generalizing m with
  | zero => rfl
  | succ n ih => rw [stream,List.length_cons,ih]

private theorem pc_skip (n : Nat) (m : Machine σ) :
    (m.skip n).cpu.regs.pc = m.cpu.regs.pc + UInt16.ofNat n := by
  induction n generalizing m with
  | zero => exact (UInt16.add_zero _).symm
  | succ n ih =>
    rw [skip,ih,Nat.add_comm,UInt16.ofNat_add,← UInt16.add_assoc]
    rfl

end Machine

namespace Exec
variable {σ : Type} [Bus σ]

/-- The outline of a piece of work: the number of bytes that it fetches at PC, its accesses after
that, the machine cycles in which the bus rests, and the PC that it leaves behind. -/
structure Outline (x : Program Unit) (m : Machine σ) (fetched : Nat) (data : List Access) (idles : Nat)
    (pc : UInt16) : Prop where
  made : accesses x m = Access.fetches m.cpu.regs.pc (m.stream fetched) ++ data
  cycles : ((x σ).run m).2.cpu.cycles = m.cpu.cycles + 4 * (fetched + data.length + idles)
  total : ((x σ).run m).2.cpu.total = m.cpu.total + 4 * (fetched + data.length + idles)
  pc : ((x σ).run m).2.cpu.regs.pc = pc

def Choice (cond : Option Cond) (x yes no : Program Unit) : Prop :=
  ∀ (τ : Type) [Bus τ] (m : Machine τ), (x τ).run m =
    if m.cpu.regs.flags.admits cond then (yes τ).run m else (no τ).run m

section
variable {x y yes no : Program Unit} {m : Machine σ} {fetched idles : Nat} {data : List Access}
  {pc : UInt16} {cond : Option Cond}

theorem Outline.congr (outline : Outline y m fetched data idles pc)
    (same : ∀ (τ : Type) [Bus τ] (b : τ), (x τ).run ⟨m.cpu,b⟩ = (y τ).run ⟨m.cpu,b⟩) :
    Outline x m fetched data idles pc := by
  have run : (x σ).run m = (y σ).run m := same σ m.bus
  have made : accesses x m = accesses y m := by
    rw [accesses,Machine.recording,same,accesses,Machine.recording]
  refine ⟨made.trans outline.made,?_,?_,?_⟩
  · rw [run,outline.cycles]
  · rw [run,outline.total]
  · rw [run,outline.pc]

theorem Outline.taken (choice : Choice cond x yes no) (admitted : m.cpu.regs.flags.admits cond = true)
    (outline : Outline yes m fetched data idles pc) : Outline x m fetched data idles pc :=
  outline.congr fun τ _ b => (choice τ ⟨m.cpu,b⟩).trans (if_pos admitted)

theorem Outline.left (choice : Choice cond x yes no) (refused : m.cpu.regs.flags.admits cond = false)
    (outline : Outline no m fetched data idles pc) : Outline x m fetched data idles pc :=
  outline.congr fun τ _ b => (choice τ ⟨m.cpu,b⟩).trans (if_neg (Bool.eq_false_iff.mp refused))

end

theorem choice_jump (cond : Option Cond) : Choice cond (fun _ => execute (.jump cond))
    (fun _ => execute (.jump none)) fun _ => fetchWord >>= fun _ => pure () := by
  intro τ _ m
  change StateT.run (if m.cpu.regs.flags.admits cond then _ else _ : Exec τ Unit) _ = _
  split <;> rfl

theorem choice_jumpRel (cond : Option Cond) : Choice cond (fun _ => execute (.jumpRel cond))
    (fun _ => execute (.jumpRel none)) fun _ => fetch >>= fun _ => pure () := by
  intro τ _ m
  change StateT.run (if m.cpu.regs.flags.admits cond then _ else _ : Exec τ Unit) _ = _
  split <;> rfl

theorem choice_call (cond : Option Cond) : Choice cond (fun _ => execute (.call cond))
    (fun _ => execute (.call none)) fun _ => fetchWord >>= fun _ => pure () := by
  intro τ _ m
  change StateT.run (if m.cpu.regs.flags.admits cond then _ else _ : Exec τ Unit) _ = _
  split <;> rfl

theorem choice_ret (cond : Cond) : Choice (some cond) (fun _ => execute (.ret (some cond)))
    (fun _ => idle >>= fun _ => execute (.ret none)) fun _ => idle := by
  intro τ _ m
  change StateT.run (if m.cpu.regs.flags.admits (some cond) then _ else _ : Exec τ Unit) _ = _
  split <;> rfl

private theorem outline_executeBit (i : BitInstr) (m : Machine σ) :
    ∃ data, data.map Access.place = i.places m.cpu.regs ∧
      Outline (fun _ => executeBit i) m 0 data 0 m.cpu.regs.pc := by
  cases i with
  | shift op o | reset bit o | set bit o =>
    cases o with
    | reg r => cases r <;> exact ⟨_,rfl,rfl,rfl,rfl,rfl⟩
    | atHL => exact ⟨_,rfl,rfl,rfl,rfl,rfl⟩
  | test bit o => cases o <;> exact ⟨_,rfl,rfl,rfl,rfl,rfl⟩

private theorem outline_call (m : Machine σ) : Outline (fun _ => execute (.call none)) m 2
    (Access.pushes m.cpu.regs.sp (m.skip 2).cpu.regs.pc) 1 (operandWord (m.stream 2)) :=
  ⟨rfl,rfl,rfl,rfl⟩

theorem outline_execute {i : Instr} (encoded : i.isEncoded) (m : Machine σ) :
    ∃ data, data.map Access.place = i.places m.cpu.regs (m.stream i.operandBytes) ∧
      Outline (fun _ => execute i) m i.operandBytes data (i.internalSteps m.cpu.regs.flags)
        (i.destination m.cpu.regs (m.stream i.operandBytes) (m.skip i.operandBytes).cpu.regs.pc data) := by
  cases i with
  | halt =>
    refine ⟨[],rfl,rfl,?_,?_,?_⟩
    · change (ite _ _ _ : Cpu).cycles = _
      split <;> rfl
    · change (ite _ _ _ : Cpu).total = _
      split <;> rfl
    · change (ite _ _ _ : Cpu).regs.pc = _
      split <;> rfl
  | load dst src =>
    cases src with
    | reg =>
      cases dst with
      | reg x => cases x <;> exact ⟨_,rfl,rfl,rfl,rfl,rfl⟩
      | atHL => exact ⟨_,rfl,rfl,rfl,rfl,rfl⟩
    | atHL =>
      cases dst with
      | reg x => cases x <;> exact ⟨_,rfl,rfl,rfl,rfl,rfl⟩
      | atHL => cases encoded
  | loadImm o | inc o | dec o =>
    cases o with
    | reg x => cases x <;> exact ⟨_,rfl,rfl,rfl,rfl,rfl⟩
    | atHL => exact ⟨_,rfl,rfl,rfl,rfl,rfl⟩
  | alu op o => cases o <;> cases op <;> exact ⟨_,rfl,rfl,rfl,rfl,rfl⟩
  | aluImm op => cases op <;> exact ⟨_,rfl,rfl,rfl,rfl,rfl⟩
  | loadPair p | pop p | incPair p | decPair p =>
    cases p with
    | pc => cases encoded
    | _ => exact ⟨_,rfl,rfl,rfl,rfl,rfl⟩
  | storeVia p | loadVia p => cases p <;> exact ⟨_,rfl,rfl,rfl,rfl,rfl⟩
  | jump cond =>
    change ∃ data, _ ∧ Outline _ m 2 data (if m.cpu.regs.flags.admits cond then 1 else 0)
      (if m.cpu.regs.flags.admits cond then _ else _)
    cases admitted : m.cpu.regs.flags.admits cond with
    | true => exact ⟨_,rfl,.taken (choice_jump cond) admitted ⟨rfl,rfl,rfl,rfl⟩⟩
    | false => exact ⟨_,rfl,.left (choice_jump cond) admitted ⟨rfl,rfl,rfl,rfl⟩⟩
  | jumpRel cond =>
    change ∃ data, _ ∧ Outline _ m 1 data (if m.cpu.regs.flags.admits cond then 1 else 0)
      (if m.cpu.regs.flags.admits cond then _ else _)
    cases admitted : m.cpu.regs.flags.admits cond with
    | true => exact ⟨_,rfl,.taken (choice_jumpRel cond) admitted ⟨rfl,rfl,rfl,rfl⟩⟩
    | false => exact ⟨_,rfl,.left (choice_jumpRel cond) admitted ⟨rfl,rfl,rfl,rfl⟩⟩
  | call cond =>
    change ∃ data, _ = (if m.cpu.regs.flags.admits cond then _ else _) ∧
      Outline _ m 2 data (if m.cpu.regs.flags.admits cond then 1 else 0)
        (if m.cpu.regs.flags.admits cond then _ else _)
    cases admitted : m.cpu.regs.flags.admits cond with
    | true => exact ⟨_,rfl,.taken (choice_call cond) admitted (outline_call m)⟩
    | false => exact ⟨_,rfl,.left (choice_call cond) admitted ⟨rfl,rfl,rfl,rfl⟩⟩
  | ret cond =>
    cases cond with
    | none => exact ⟨_,rfl,rfl,rfl,rfl,rfl⟩
    | some cond =>
      change ∃ data, _ = (if m.cpu.regs.flags.admits (some cond) then _ else _) ∧
        Outline _ m 0 data (if m.cpu.regs.flags.admits (some cond) then 2 else 1)
          (if m.cpu.regs.flags.admits (some cond) then _ else _)
      cases admitted : m.cpu.regs.flags.admits (some cond) with
      | true => exact ⟨_,rfl,.taken (choice_ret cond) admitted ⟨rfl,rfl,rfl,rfl⟩⟩
      | false => exact ⟨_,rfl,.left (choice_ret cond) admitted ⟨rfl,rfl,rfl,rfl⟩⟩
  | extended =>
    obtain ⟨data,places,outline⟩ := outline_executeBit (.decode m.opcode) m.passed
    have passed : (fetch (σ := σ)).run m = (m.opcode,m.passed) := rfl
    refine ⟨data,places,?_,?_,?_,outline.pc⟩
    · change accesses (fun σ => fetch (σ := σ) >>= fun op => executeBit (.decode op)) m = _
      rw [Routine.accesses_bind Routine.fetch fun op => Routine.executeBit (.decode op),passed,outline.made]
      rfl
    · change ((executeBit (.decode m.opcode)).run m.passed).2.cpu.cycles = m.cpu.cycles + 4 * (1 + _ + 0)
      rw [outline.cycles]
      simp only [Machine.passed,Cpu.charge]
      omega
    · change ((executeBit (.decode m.opcode)).run m.passed).2.cpu.total = m.cpu.total + 4 * (1 + _ + 0)
      rw [outline.total]
      simp only [Machine.passed,Cpu.charge]
      omega
  | _ => exact ⟨_,rfl,rfl,rfl,rfl,rfl⟩

private theorem made_of_calls {i : Instr} {m : Machine σ} (calls : i.calls m.cpu.regs.flags) :
    accesses (fun _ => execute i) m = Access.fetches m.cpu.regs.pc (m.stream i.operandBytes) ++
      Access.pushes m.cpu.regs.sp (m.skip i.operandBytes).cpu.regs.pc := by
  cases i with
  | rst target => rfl
  | call cond => exact ((outline_call m).taken (choice_call cond) calls).made
  | _ => cases calls

theorem outline_step {m : Machine σ} {i : Instr} (clear : m.cpu.fault = none)
    (awake : m.cpu.halted → (Bus.interrupts m.bus).any) (decoded : Instr.decode m.opcode = some i) :
    let bytes := m.underway.stream i.operandBytes
    let next := m.underway.cpu.regs.pc + UInt16.ofNat i.operandBytes
    ∃ data t, step.run m = (.ok t.cpu.cycles,t) ∧
      accesses (fun _ => step) m =
        m.fetch :: (Access.fetches m.underway.cpu.regs.pc bytes ++ data) ∧
      data.map Access.place = i.places m.cpu.regs bytes ∧
      t.cpu.cycles = (if m.cpu.halted then 4 else 0) +
        4 * (1 + i.operandBytes + data.length + i.internalSteps m.cpu.regs.flags) ∧
      t.cpu.total = m.cpu.total + t.cpu.cycles ∧
      t.cpu.regs.pc = i.destination m.cpu.regs bytes next data ∧
      (i.calls m.cpu.regs.flags → data = Access.pushes m.cpu.regs.sp next) := by
  intro bytes next
  obtain ⟨data,places,outline⟩ := outline_execute (Instr.isEncoded_of_decode decoded) m.underway
  obtain ⟨cycles,total⟩ := m.clocks_underway
  have flags : m.underway.cpu.regs.flags = m.cpu.regs.flags := by rw [m.regs_underway]
  cases run : step.run m with
  | mk result t =>
    cases course_of_step run with
    | latched f fault => simp [clear] at fault
    | asleep _ halted quiet => simp [awake halted] at quiet
    | refused _ _ illegal => simp [decoded] at illegal
    | executed j _ _ legal made =>
      cases legal.symm.trans decoded
      refine ⟨data,_,rfl,?_,?_,?_,?_,?_,?_⟩
      · rw [made,outline.made]
      · rw [places,m.regs_underway,i.places_pc]
      · rw [outline.cycles,cycles,flags]
        omega
      · rw [outline.cycles,outline.total,total]
        omega
      · rw [outline.pc,m.underway.pc_skip,m.regs_underway,i.destination_pc]
      · intro calls
        rw [← flags] at calls
        have same := outline.made.symm.trans (made_of_calls calls)
        rw [List.append_cancel_left same,m.underway.pc_skip,m.regs_underway]

end Exec
end Sm83
