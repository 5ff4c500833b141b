import Sm83.Proofs.Cpu.Effect
import Sm83.Proofs.Cpu.Refusal
import Sm83.Proofs.Registers

/-!
The registers through all that can be done with a processor. An instruction changes nothing apart from the
places that it writes to (`keeps_execute`), and so does a step (`keeps_step`). Main statement:
`registers_of_history`.
-/
namespace Sm83
open Registers

def Operand.targets : Operand → List Place
  | reg x => [.byte x]
  | atHL => []

def Pointer.targets : Pointer → List Place
  | bc | de => []
  | hlUp | hlDown => [.pair .hl]

def BitInstr.targets : BitInstr → List Place
  | shift _ o => .byte .f :: o.targets
  | test .. => [.byte .f]
  | reset _ o | set _ o => o.targets

/-- The places besides PC that an instruction writes to, if `next` follows its opcode. -/
def Instr.targets (next : UInt8) : Instr → List Place
  | load dst _ | loadImm dst => dst.targets
  | loadPair p | incPair p | decPair p => [.pair p]
  | storeVia p => p.targets
  | loadVia p => .byte .a :: p.targets
  | loadHigh | loadHighC | loadAbs => [.byte .a]
  | loadSP | push _ | call _ | rst _ | ret _ | reti => [.pair .sp]
  | loadOffset | addHL _ => [.byte .f,.pair .hl]
  | addSP => [.byte .f,.pair .sp]
  | pop p => [.pair .sp,.pair p]
  | alu op _ | aluImm op => op.targets
  | inc dst | dec dst => .byte .f :: dst.targets
  | rotateA _ | daa | cpl => [.byte .f,.byte .a]
  | scf | ccf => [.byte .f]
  | extended => (BitInstr.decode next).targets
  | nop | halt | stop | di | ei | jump _ | jumpHL | jumpRel _ => []
  | storeHigh | storeHighC | storeAbs | storeSP => []

namespace Exec
variable {σ : Type} {α β : Type} {places : List Place}

/-- The work changes nothing in the registers apart from the places. -/
def Stays (places : List Place) (x : Exec σ α) : Prop :=
  ∀ m : Machine σ, Keeps places m.cpu.regs (x.run m).2.cpu.regs

namespace Stays

theorem bind {x : Exec σ α} {f : α → Exec σ β} (first : Stays places x)
    (next : ∀ a, Stays places (f a)) : Stays places (x >>= f) := fun m => (first m).trans (next _ _)

theorem still {x : Exec σ α} (same : ∀ m : Machine σ, (x.run m).2.cpu.regs = m.cpu.regs) :
    Stays places x := fun m q _ => by rw [same]

theorem pure (a : α) : Stays (σ := σ) places (Pure.pure a) := still fun _ => rfl

theorem regs : Stays (σ := σ) places Exec.regs := still fun _ => rfl

theorem idle : Stays (σ := σ) places Exec.idle := still fun _ => rfl

theorem updateRegs {f : Registers → Registers} (keeps : ∀ r, Keeps places r (f r)) :
    Stays (σ := σ) places (Exec.updateRegs f) := fun m => keeps m.cpu.regs

theorem update {f : Cpu → Cpu} (same : ∀ c, (f c).regs = c.regs) :
    Stays (σ := σ) places (Exec.update f) := still fun m => same m.cpu

private theorem setPair {p : Reg16} (member : .pair p ∈ places) (f : Registers → UInt16) :
    Stays (σ := σ) places (Exec.updateRegs fun r => r.set16 (f r) p) :=
  updateRegs fun r => r.keeps_write (.set16 p (f r)) member

theorem setFlags (member : .byte .f ∈ places) (f : Registers → Flags) :
    Stays (σ := σ) places (Exec.updateRegs fun r => {r with flags := f r}) :=
  updateRegs fun r => r.keeps_flags (f r) member

theorem taken (cond : Option Cond) : Stays (σ := σ) places (Exec.taken cond) := regs.bind fun _ => pure _

theorem branch {x : Exec σ Unit} (stays : Stays places x) (b : Bool) :
    Stays places (if b then x else Pure.pure ()) := by
  cases b with
  | false => exact pure ()
  | true => exact stays

theorem jumpTo (counter : .pair .pc ∈ places) (a : UInt16) : Stays (σ := σ) places (Exec.jumpTo a) :=
  setPair counter fun _ => a

theorem setA (accumulator : .byte .a ∈ places) (v : UInt8) : Stays (σ := σ) places (Exec.setA v) :=
  updateRegs fun r => r.keeps_write (.set8 .a v) accumulator

theorem point {p : Pointer} (moved : p.targets ⊆ places) : Stays (σ := σ) places (Exec.point p) := by
  cases p with
  | bc | de => exact regs.bind fun r => pure _
  | hlUp | hlDown =>
    exact regs.bind fun r => (setPair (moved List.mem_cons_self) _).bind fun _ => pure r.hl

variable [Bus σ]

theorem read (a : UInt16) : Stays (σ := σ) places (Exec.read a) := still fun _ => rfl

theorem write (a : UInt16) (v : UInt8) : Stays (σ := σ) places (Exec.write a v) := still fun _ => rfl

theorem fetch (counter : .pair .pc ∈ places) : Stays (σ := σ) places Exec.fetch :=
  regs.bind fun r => (read r.pc).bind fun v => (setPair counter _).bind fun _ => pure v

theorem fetchWord (counter : .pair .pc ∈ places) : Stays (σ := σ) places Exec.fetchWord :=
  (fetch counter).bind fun lo => (fetch counter).bind fun hi => pure (word hi lo)

theorem readOperand (o : Operand) : Stays (σ := σ) places (Exec.readOperand o) := by
  cases o with
  | reg r => exact regs.bind fun x => pure (x.get8 r)
  | atHL => exact regs.bind fun x => read x.hl

theorem writeOperand {o : Operand} (targets : o.targets ⊆ places) (v : UInt8) :
    Stays (σ := σ) places (Exec.writeOperand o v) := by
  cases o with
  | reg x => exact updateRegs fun r => r.keeps_write (.set8 x v) (targets List.mem_cons_self)
  | atHL => exact regs.bind fun r => write r.hl v

section
variable (stack : .pair .sp ∈ places)
include stack

theorem push (w : UInt16) : Stays (σ := σ) places (Exec.push w) :=
  (setPair stack _).bind fun _ => regs.bind fun r =>
    (write r.sp (highByte w)).bind fun _ => (setPair stack _).bind fun _ =>
      regs.bind fun r => write r.sp (lowByte w)

theorem pop : Stays (σ := σ) places Exec.pop :=
  regs.bind fun r => (read r.sp).bind fun lo => (setPair stack _).bind fun _ =>
    regs.bind fun r => (read r.sp).bind fun hi => (setPair stack _).bind fun _ => pure (word hi lo)

theorem callTo (counter : .pair .pc ∈ places) (a : UInt16) : Stays (σ := σ) places (Exec.callTo a) :=
  idle.bind fun _ => regs.bind fun r => (push stack r.pc).bind fun _ => jumpTo counter a

theorem returnBack (counter : .pair .pc ∈ places) : Stays (σ := σ) places Exec.returnBack :=
  (pop stack).bind fun a => idle.bind fun _ => jumpTo counter a

end

theorem executeBit (i : BitInstr) : Stays (σ := σ) i.targets (Exec.executeBit i) := by
  cases i with
  | shift op o =>
    exact (readOperand o).bind fun v => regs.bind fun r =>
      (setFlags List.mem_cons_self _).bind fun _ => writeOperand (List.subset_cons_self _ _) _
  | test bit o => exact (readOperand o).bind fun v => updateRegs fun r => r.keeps_perform (.testBit bit v)
  | reset bit o | set bit o => exact (readOperand o).bind fun v => writeOperand (List.Subset.refl _) _

theorem execute {i : Instr} (plain : i ≠ .extended) (next : UInt8) :
    Stays (σ := σ) (.pair .pc :: i.targets next) (Exec.execute i) := by
  have counter : .pair .pc ∈ .pair .pc :: i.targets next := List.mem_cons_self
  have sub : i.targets next ⊆ .pair .pc :: i.targets next := List.subset_cons_self _ _
  have first {p : Place} {ps : List Place} : p ∈ .pair .pc :: p :: ps :=
    List.mem_cons_of_mem _ List.mem_cons_self
  have rest {p : Place} {ps : List Place} (sub : p :: ps ⊆ .pair .pc :: i.targets next) :
      ps ⊆ .pair .pc :: i.targets next := List.Subset.trans (List.subset_cons_self p ps) sub
  have second {p q : Place} {ps : List Place} : q ∈ .pair .pc :: p :: q :: ps :=
    List.mem_cons_of_mem _ (List.mem_cons_of_mem _ List.mem_cons_self)
  cases i with
  | nop | di | ei => exact still fun _ => rfl
  | halt =>
    refine bind (still fun _ => rfl) fun waits => update fun c => ?_
    split <;> rfl
  | stop => exact (fetch counter).bind fun _ => update fun _ => rfl
  | load dst src => exact (readOperand src).bind fun v => writeOperand sub v
  | loadImm dst => exact (fetch counter).bind fun v => writeOperand sub v
  | loadPair p => exact (fetchWord counter).bind fun w => setPair first _
  | storeVia p => exact (point sub).bind fun a => regs.bind fun r => write a r.a
  | loadVia p =>
    exact (point (rest sub)).bind fun a => (read a).bind fun v => setA first v
  | storeHigh => exact (fetch counter).bind fun lo => regs.bind fun r => write _ r.a
  | loadHigh => exact (fetch counter).bind fun lo => (read _).bind fun v => setA first v
  | storeHighC => exact regs.bind fun r => write _ r.a
  | loadHighC => exact regs.bind fun r => (read _).bind fun v => setA first v
  | storeAbs => exact (fetchWord counter).bind fun a => regs.bind fun r => write a r.a
  | loadAbs => exact (fetchWord counter).bind fun a => (read a).bind fun v => setA first v
  | storeSP =>
    exact (fetchWord counter).bind fun a => regs.bind fun r => (write a _).bind fun _ => write (a + 1) _
  | loadSP => exact idle.bind fun _ => setPair first _
  | loadOffset =>
    exact (fetch counter).bind fun e => idle.bind fun _ => updateRegs fun r =>
      r.keeps_flags_write (Alu.addSigned r.sp e).2 (.set16 .hl (Alu.addSigned r.sp e).1) first second
  | push p => exact regs.bind fun r => idle.bind fun _ => push first (r.get16 p)
  | pop p => exact (pop first).bind fun w => setPair second _
  | alu op src =>
    exact (readOperand src).bind fun v => updateRegs fun r => (r.keeps_perform (.alu op v)).mono sub
  | aluImm op =>
    exact (fetch counter).bind fun v => updateRegs fun r => (r.keeps_perform (.alu op v)).mono sub
  | inc dst | dec dst =>
    exact (readOperand dst).bind fun v => regs.bind fun r => (setFlags first _).bind fun _ =>
      writeOperand (rest sub) _
  | incPair p | decPair p => exact idle.bind fun _ => setPair first _
  | addHL p =>
    exact idle.bind fun _ => updateRegs fun r => (r.keeps_perform (.addHL (r.get16 p))).mono sub
  | addSP =>
    exact (fetch counter).bind fun e => idle.bind fun _ => idle.bind fun _ => updateRegs fun r =>
      r.keeps_flags_write (Alu.addSigned r.sp e).2 (.set16 .sp (Alu.addSigned r.sp e).1) first second
  | rotateA op =>
    exact updateRegs fun r =>
      let out := Alu.shift op r.flags .cleared r.a
      r.keeps_flags_write out.2 (.set8 .a out.1) first second
  | daa => exact updateRegs fun r => (r.keeps_perform .daa).mono sub
  | cpl =>
    exact updateRegs fun r =>
      r.keeps_flags_write {r.flags with n := true, h := true} (.set8 .a (~~~r.a)) first second
  | scf => exact setFlags first fun r => {z := r.flags.z, c := true}
  | ccf => exact setFlags first fun r => {z := r.flags.z, c := !r.flags.c}
  | jump cond =>
    exact (fetchWord counter).bind fun a => (taken cond).bind fun b =>
      branch (idle.bind fun _ => jumpTo counter a) b
  | jumpHL => exact setPair counter _
  | jumpRel cond =>
    exact (fetch counter).bind fun e => (taken cond).bind fun b =>
      branch (idle.bind fun _ => setPair counter _) b
  | call cond =>
    exact (fetchWord counter).bind fun a => (taken cond).bind fun b => branch (callTo first counter a) b
  | rst target => exact callTo first counter _
  | ret cond =>
    have back : Stays (σ := σ) _ Exec.returnBack := returnBack first counter
    cases cond with
    | none => exact back
    | some cond => exact idle.bind fun _ => regs.bind fun r => branch back (cond.holds r.flags)
  | reti => exact (returnBack first counter).bind fun _ => update fun _ => rfl
  | extended => exact absurd rfl plain

theorem dispatch (a : UInt16) : Stays (σ := σ) [.pair .sp,.pair .pc] (Exec.dispatch a) := by
  refine bind (update ?_) fun _ => idle.bind fun _ => idle.bind fun _ => regs.bind fun r =>
    (push List.mem_cons_self r.pc).bind fun _ => idle.bind fun _ =>
      (jumpTo (List.mem_cons_of_mem _ List.mem_cons_self) a).bind fun _ => still ?_
  · exact fun _ => rfl
  · exact fun _ => rfl

end Stays

theorem keeps_execute [Bus σ] (i : Instr) (m : Machine σ) :
    Keeps (.pair .pc :: i.targets m.opcode) m.cpu.regs ((execute i).run m).2.cpu.regs := by
  by_cases prefixed : i = .extended
  · subst prefixed
    have first : Keeps (.pair .pc :: Instr.extended.targets m.opcode) m.cpu.regs (fetch.run m).2.cpu.regs :=
      Stays.fetch List.mem_cons_self m
    have second := Stays.executeBit (.decode m.opcode) (fetch.run m).2
    exact first.trans (second.mono (List.subset_cons_self _ _))
  · exact Stays.execute prefixed m.opcode m

end Exec

namespace Machine
variable {σ : Type} [Bus σ]

def targets (m : Machine σ) : List Place :=
  .pair .pc :: (Instr.decode m.opcode).elim [] fun i => i.targets m.underway.opcode

theorem keeps_step (m : Machine σ) : Keeps m.targets m.cpu.regs (Exec.step.run m).2.cpu.regs := by
  have begun : Keeps m.targets m.cpu.regs m.underway.cpu.regs := by
    rw [m.regs_underway]
    exact m.cpu.regs.keeps_write (.set16 .pc _) List.mem_cons_self
  obtain ⟨result,t,run,course⟩ := Exec.exists_course m
  rw [run]
  cases course with
  | latched | asleep => exact .refl _ _
  | refused => exact begun
  | executed i _ _ decoded =>
    have executed := Exec.keeps_execute i m.underway
    have targets : m.targets = .pair .pc :: i.targets m.underway.opcode := by rw [targets,decoded]; rfl
    rw [targets] at begun ⊢
    exact begun.trans executed

/-- The word on top of the stack as a step finds it, once it has its opcode. -/
def top (m : Machine σ) : UInt16 :=
  let lo := Bus.read m.underway.bus m.cpu.regs.sp
  word (Bus.read lo.2 (m.cpu.regs.sp + 1)).1 lo.1

private theorem regs_of_pop {m : Machine σ} {p : Reg16} (clear : m.cpu.fault = none)
    (waking : m.cpu.halted → (Bus.interrupts m.bus).any) (decoded : Instr.decode m.opcode = some (.pop p)) :
    (Exec.step.run m).2.cpu.regs =
      {m.cpu.regs with sp := m.cpu.regs.sp + 2, pc := m.underway.cpu.regs.pc}.write (.set16 p m.top) := by
  have effect := Exec.effect_of_execute clear waking decoded rfl
  have sp : m.underway.cpu.regs.sp = m.cpu.regs.sp := by rw [m.regs_underway]
  have popped : ((Exec.execute (.pop p)).run m.underway).2.cpu.regs =
      {m.underway.cpu.regs with sp := m.underway.cpu.regs.sp + 1 + 1}.set16
        (word (Bus.read (Bus.read m.underway.bus m.underway.cpu.regs.sp).2 (m.underway.cpu.regs.sp + 1)).1
          (Bus.read m.underway.bus m.underway.cpu.regs.sp).1) p := rfl
  rw [effect.regs,popped,sp,m.regs_underway,UInt16.add_two]
  rfl

end Machine

/-- Anything that can be done with the registers of a processor. -/
inductive Handling : Type 1
  | write (w : Write)
  | primitive (p : Primitive)
  | use (u : Use)

/-- The places that a use of a processor writes to. A restart writes to all of them. -/
def Use.targets (c : Cpu) : Use → List Place
  | @step _ _ bus => (⟨c,bus⟩ : Machine _).targets
  | dispatch .. => [.pair .sp,.pair .pc]
  | wake => []
  | reset | skipBoot => Place.everything

def Handling.targets (c : Cpu) : Handling → List Place
  | write w => [w.target]
  | primitive p => p.targets
  | use u => u.targets c

namespace Cpu

def handle (c : Cpu) : Handling → Cpu
  | .write w => {c with regs := c.regs.write w}
  | .primitive p => {c with regs := c.regs.perform p}
  | .use u => (c.use u).2

def handleAll (c : Cpu) (hs : List Handling) : Cpu := hs.foldl handle c

def Spares (q : Place) : Cpu → List Handling → Prop
  | _,[] => True
  | c,h :: later => (∀ p ∈ h.targets c, p.Apart q) ∧ Spares q (c.handle h) later

theorem keeps_use (c : Cpu) (u : Use) : Keeps (u.targets c) c.regs (c.use u).2.regs := by
  cases u with
  | step bus => exact Machine.keeps_step ⟨c,bus⟩
  | dispatch bus a => exact Exec.Stays.dispatch a ⟨c,bus⟩
  | wake => exact .refl _ _
  | reset | skipBoot =>
    intro q apart
    obtain ⟨p,member,overlap⟩ := q.overlaps_everything
    exact absurd (apart p member) overlap

theorem keeps_handle (c : Cpu) (h : Handling) : Keeps (h.targets c) c.regs (c.handle h).regs := by
  cases h with
  | write w => exact c.regs.keeps_write w List.mem_cons_self
  | primitive p => exact c.regs.keeps_perform p
  | use u => exact c.keeps_use u

theorem read_of_spares {q : Place} {c : Cpu} {later : List Handling} (spares : c.Spares q later) :
    (c.handleAll later).regs.read q = c.regs.read q := by
  induction later generalizing c with
  | nil => rfl
  | cons h later ih =>
    obtain ⟨apart,rest⟩ := spares
    exact (ih rest).trans (c.keeps_handle h q apart)

private theorem handleAll_writes (c : Cpu) (ws : List Write) :
    c.handleAll (ws.map .write) = {c with regs := c.regs.writeAll ws} := by
  induction ws generalizing c with
  | nil => rfl
  | cons w ws ih => exact ih (c.handle (.write w))

/-- Whatever has been done, F has no low nibble, and a pair is its high byte times 256 plus its low byte.
A register or pair keeps its value as long as nothing that overlaps it is written, and what is written is
read back, but for the low nibble of F. All that the arithmetic leaves behind are writes of this kind, and
so is what `POP` makes of any two bytes on the stack. -/
theorem registers_of_history (c : Cpu) (history : List Handling) :
    let d := c.handleAll history
    d.regs.f &&& 0x0F = 0 ∧
    (∀ p hi lo, p.bytes = [hi,lo] →
      d.regs.read (.pair p) = d.regs.read (.byte hi) * 256 + d.regs.read (.byte lo)) ∧
    (∀ q later, d.Spares q later → (d.handleAll later).regs.read q = d.regs.read q) ∧
    (∀ w later, (d.handle (.write w)).Spares w.target later →
      (d.handleAll (.write w :: later)).regs.read w.target = w.value d.regs.f) ∧
    (∀ p, d.handle (.primitive p) = d.handleAll ((p.writes d.regs).map .write)) ∧
    ∀ (σ : Type) [Bus σ] (bus : σ) p, let m : Machine σ := ⟨d,bus⟩
      d.fault = none → (d.halted → (Bus.interrupts bus).any) → Instr.decode m.opcode = some (.pop p) →
        (d.handle (.use (.step bus))).regs.read (.pair p) = (Write.set16 p m.top).value d.regs.f := by
  intro d
  refine ⟨d.regs.flags.toByte_low,?_,fun _ _ => read_of_spares,?_,?_,?_⟩
  · intro p hi lo bytes
    exact read_pair bytes d.regs
  · intro w later spares
    exact (read_of_spares spares).trans (d.regs.read_write w)
  · intro p
    rw [handleAll_writes,← perform_eq]
    rfl
  · intro σ _ bus p m clear waking decoded
    have popped := Machine.regs_of_pop (m := m) clear waking decoded
    change (Exec.step.run m).2.cpu.regs.read (.pair p) = _
    rw [popped]
    exact read_write _ (.set16 p m.top)

/-- `POP AF` in memory, with a word on the stack that does not fit into AF. -/
def returning : FlatBus := {memory := (Memory.zero.write 0x0100 0xF1).store 0x0020 [0x5F,0x12]}

/-- Two of the flags that the boot program leaves behind are cleared. Then a pair is written, and `LD B,C`
is carried out. -/
theorem registers_of_history_returning :
    let history : List Handling :=
      [.write (.set8 .f 0xFF),.primitive (.inc8 0xFF),.use .skipBoot,.write (.set16 .sp 0x0020)]
    let d := Cpu.powerOn.handleAll history
    let w : Write := .clearFlag (.or .z (.ofBits 0x1F))
    let later : List Handling :=
      [.write (.set16 .bc 0x1234),.use (.step {returning with memory := Memory.zero.write 0x0100 0x41})]
    (d.handle (.write w)).Spares (.byte .f) later ∧
      (d.handleAll (.write w :: later)).regs.read (.byte .f) = 0x20 ∧
      Instr.decode (⟨d,returning⟩ : Machine FlatBus).opcode = some (.pop .af) ∧
      (d.handle (.use (.step returning))).regs.read (.pair .af) = 0x1250 ∧
      d.Spares (.pair .hl) [.use (.step returning)] ∧
      (d.handleAll [.use (.step returning)]).regs.read (.pair .hl) = 0x014D := by
  intro history d w later
  obtain ⟨-,-,kept,written,-,popped⟩ := registers_of_history .powerOn history
  have spares : (d.handle (.write w)).Spares (.byte .f) later :=
    ⟨by decide +kernel,by decide +kernel,trivial⟩
  have decoded : Instr.decode (⟨d,returning⟩ : Machine FlatBus).opcode = some (.pop .af) := by decide +kernel
  have apart : d.Spares (.pair .hl) [.use (.step returning)] := ⟨by decide +kernel,trivial⟩
  refine ⟨spares,(written w later spares).trans (by decide +kernel),decoded,?_,apart,?_⟩
  · exact (popped FlatBus returning .af rfl nofun decoded).trans (by decide +kernel)
  · exact (kept (.pair .hl) _ apart).trans (by decide +kernel)

end Cpu
end Sm83
