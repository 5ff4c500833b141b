import Sm83.Proofs.Cpu.Effect
import Sm83.Proofs.Cpu.Outline

/-!
The stack on plain memory. Words that are pushed lie one below the other (`words_pushedAll`), down to a
stack that takes up all of it. Main statement: `stack_of_words`.
-/
namespace Sm83

private theorem UInt16.sub_double_succ (a : UInt16) (n : Nat) :
    a - 2 * UInt16.ofNat (n + 1) = a - 2 - 2 * UInt16.ofNat n := by
  rw [UInt16.ofNat_add]
  grind

private theorem UInt16.add_double_succ (a : UInt16) (n : Nat) :
    a + 2 * UInt16.ofNat (n + 1) = a + 2 + 2 * UInt16.ofNat n := by
  rw [UInt16.ofNat_add]
  grind

namespace Memory

def wordAt (m : Memory) (a : UInt16) : UInt16 := word (m.read (a + 1)) (m.read a)

def words (m : Memory) (a : UInt16) : Nat → List UInt16
  | 0 => []
  | n + 1 => m.wordAt a :: m.words (a + 2) n

def pushed (m : Memory) (sp w : UInt16) : Memory :=
  (m.write (sp - 1) (highByte w)).write (sp - 2) (lowByte w)

/-- The memory with the words put below `sp` and each other. -/
def pushedAll (m : Memory) (sp : UInt16) : List UInt16 → Memory
  | [] => m
  | w :: ws => (m.pushed sp w).pushedAll (sp - 2) ws

theorem read_pushed (m : Memory) (sp w a : UInt16) : (m.pushed sp w).read a =
    if a = sp - 2 then lowByte w else if a = sp - 1 then highByte w else m.read a := by
  rw [pushed,read_write,read_write]

theorem wordAt_pushed (m : Memory) (sp w : UInt16) : (m.pushed sp w).wordAt (sp - 2) = w := by
  obtain ⟨apart,above,-⟩ := stack_apart sp
  rw [wordAt,above,read_pushed,read_pushed,if_neg apart,if_pos rfl,if_pos rfl,word_high_low]

private theorem words_concat (m : Memory) (a : UInt16) (n : Nat) :
    m.words a (n + 1) = m.words a n ++ [m.wordAt (a + 2 * UInt16.ofNat n)] := by
  induction n generalizing a with
  | zero => simp [words]
  | succ n ih =>
    rw [words,ih,UInt16.add_double_succ]
    rfl

private theorem read_pushedAll {m : Memory} {sp a : UInt16} {ws : List UInt16}
    (outside : ∀ k, 0 < k → k ≤ 2 * ws.length → a ≠ sp - UInt16.ofNat k) :
    (m.pushedAll sp ws).read a = m.read a := by
  induction ws generalizing m sp with
  | nil => rfl
  | cons w ws ih =>
    rw [List.length_cons] at outside
    have rest : ∀ k, 0 < k → k ≤ 2 * ws.length → a ≠ sp - 2 - UInt16.ofNat k := by
      intro k some few
      have apart := outside (k + 2) (by omega) (by omega)
      rw [UInt16.ofNat_add] at apart
      grind
    have high : a ≠ sp - 1 := outside 1 (by omega) (by omega)
    have low : a ≠ sp - 2 := outside 2 (by omega) (by omega)
    rw [pushedAll,ih rest,read_pushed,if_neg low,if_neg high]

private theorem add_ne_sub (a : UInt16) {d k : Nat} (some : 0 < k) (small : k + d < 0x10000) :
    a + UInt16.ofNat d ≠ a - UInt16.ofNat k := by
  intro same
  have round : UInt16.ofNat (k + d) = 0 := by
    rw [UInt16.ofNat_add]
    grind
  have none := congrArg UInt16.toNat round
  rw [UInt16.toNat_ofNat',UInt16.toNat_zero] at none
  omega

private theorem wordAt_pushedAll (m : Memory) (sp : UInt16) {ws : List UInt16}
    (fits : 2 * ws.length + 1 < 0x10000) : (m.pushedAll sp ws).wordAt sp = m.wordAt sp := by
  have low : (m.pushedAll sp ws).read sp = m.read sp := by
    apply read_pushedAll
    intro k some few
    have apart := add_ne_sub sp (d := 0) some (by omega)
    simpa using apart
  have high : (m.pushedAll sp ws).read (sp + 1) = m.read (sp + 1) := by
    apply read_pushedAll
    intro k some few
    exact add_ne_sub sp (d := 1) some (by omega)
  rw [wordAt,wordAt,low,high]

theorem words_pushedAll (m : Memory) (sp : UInt16) {ws : List UInt16} (fits : 2 * ws.length ≤ 0x10000) :
    (m.pushedAll sp ws).words (sp - 2 * UInt16.ofNat ws.length) ws.length = ws.reverse := by
  induction ws generalizing m sp with
  | nil => rfl
  | cons w ws ih =>
    rw [List.length_cons] at fits ⊢
    -- the word that is pushed first ends up last, and the others do not come round to it
    have top : sp - 2 - 2 * UInt16.ofNat ws.length + 2 * UInt16.ofNat ws.length = sp - 2 := by grind
    rw [UInt16.sub_double_succ,pushedAll,words_concat,ih _ _ (by omega),top,
      wordAt_pushedAll _ _ (by omega),wordAt_pushed,List.reverse_cons]

end Memory

/-- The processor with another SP, once `n` words have been pushed or popped. -/
def Cpu.stacked (c : Cpu) (sp : UInt16) (n : Nat) : Cpu :=
  { c with
    regs := {c.regs with sp := sp}
    cycles := c.cycles + 8 * n
    total := c.total + 8 * n }

private theorem Cpu.stacked_stacked (c : Cpu) (a b : UInt16) (j k : Nat) :
    (c.stacked a j).stacked b k = c.stacked b (k + j) := by
  simp only [stacked,Nat.add_comm k,Nat.mul_add,Nat.add_assoc]

namespace Exec

def pushAll {σ : Type} [Bus σ] (ws : List UInt16) : Exec σ Unit := ws.forM push

def popAll {σ : Type} [Bus σ] : Nat → Exec σ (List UInt16)
  | 0 => return []
  | n + 1 => do
    let w ← pop
    let ws ← popAll n
    return w :: ws

theorem run_push (w : UInt16) (m : Machine FlatBus) : (push w).run m =
    ((),⟨m.cpu.stacked (m.cpu.regs.sp - 2) 1,{m.bus with memory := m.bus.memory.pushed m.cpu.regs.sp w}⟩) := by
  rw [Memory.pushed,← UInt16.sub_one_sub_one]
  rfl

theorem run_pop (m : Machine FlatBus) : pop.run m =
    (m.bus.memory.wordAt m.cpu.regs.sp,⟨m.cpu.stacked (m.cpu.regs.sp + 2) 1,m.bus⟩) := by
  rw [UInt16.add_two]
  rfl

theorem run_pushAll (ws : List UInt16) (m : Machine FlatBus) : (pushAll ws).run m =
    ((),⟨m.cpu.stacked (m.cpu.regs.sp - 2 * UInt16.ofNat ws.length) ws.length,
      {m.bus with memory := m.bus.memory.pushedAll m.cpu.regs.sp ws}⟩) := by
  induction ws generalizing m with
  | nil =>
    simp only [List.length_nil,UInt16.reduceOfNat,UInt16.mul_zero,UInt16.sub_zero]
    rfl
  | cons w ws ih =>
    have first : (pushAll (w :: ws)).run m = (pushAll ws).run ((push w).run m).2 := rfl
    rw [first,run_push,ih,Cpu.stacked_stacked,List.length_cons,UInt16.sub_double_succ]
    rfl

theorem run_popAll (n : Nat) (m : Machine FlatBus) : (popAll n).run m =
    (m.bus.memory.words m.cpu.regs.sp n,⟨m.cpu.stacked (m.cpu.regs.sp + 2 * UInt16.ofNat n) n,m.bus⟩) := by
  induction n generalizing m with
  | zero =>
    simp only [UInt16.reduceOfNat,UInt16.mul_zero,UInt16.add_zero]
    rfl
  | succ n ih =>
    have first : (popAll (n + 1)).run m =
        ((pop.run m).1 :: ((popAll n).run (pop.run m).2).1,((popAll n).run (pop.run m).2).2) := rfl
    rw [first,run_pop,ih,Cpu.stacked_stacked,UInt16.add_double_succ]
    rfl

private theorem decode_push {op : UInt8} (fourth : quadrant op = twoBits 3) (field : low op = threeBits 5)
    (even : middle op % 2 = 0) : Instr.decode op = some (.push (.ofStackIndex (pairField op))) := by
  simp only [Instr.decode,fourth,Instr.decodeLast,field]
  generalize middle op = k at even
  match k with
  | 0 | 2 | 4 | 6 => rfl
  | 1 | 3 | 5 | 7 => exact absurd even (by decide)

private theorem decode_pop {op : UInt8} (fourth : quadrant op = twoBits 3) (field : low op = threeBits 1)
    (even : middle op % 2 = 0) : Instr.decode op = some (.pop (.ofStackIndex (pairField op))) := by
  simp only [Instr.decode,fourth,Instr.decodeLast,field]
  generalize middle op = k at even
  match k with
  | 0 | 2 | 4 | 6 => rfl
  | 1 | 3 | 5 | 7 => exact absurd even (by decide)

section Pair
variable {m : Machine FlatBus} (clear : m.cpu.fault = none)
variable (waking : m.cpu.halted → (Bus.interrupts m.bus).any) {k : Fin 4}
include clear waking

theorem step_push (decoded : Instr.decode m.opcode = some (.push (.ofStackIndex k))) :
    (step.run m).2.cpu.regs.sp = m.cpu.regs.sp - 2 ∧
      (step.run m).2.bus.memory = m.bus.memory.pushed m.cpu.regs.sp (m.cpu.regs.get16 (.ofStackIndex k)) := by
  have effect := effect_of_execute clear waking decoded rfl
  have held : m.underway.cpu.regs.get16 (.ofStackIndex k) = m.cpu.regs.get16 (.ofStackIndex k) := by
    rw [m.regs_underway]
    match k with
    | 0 | 1 | 2 | 3 => rfl
  have sp : m.underway.cpu.regs.sp = m.cpu.regs.sp := by rw [m.regs_underway]
  rw [← sp,← held,Memory.pushed,← UInt16.sub_one_sub_one,effect.regs,effect.bus]
  exact ⟨rfl,rfl⟩

theorem step_pop (decoded : Instr.decode m.opcode = some (.pop (.ofStackIndex k))) :
    (step.run m).2.cpu.regs =
      {m.cpu.regs with sp := m.cpu.regs.sp + 2, pc := m.underway.cpu.regs.pc}.set16
        (m.bus.memory.wordAt m.cpu.regs.sp) (.ofStackIndex k) := by
  have effect := effect_of_execute clear waking decoded rfl
  have popped : ((execute (.pop (.ofStackIndex k))).run m.underway).2.cpu.regs =
      {m.underway.cpu.regs with sp := m.underway.cpu.regs.sp + 1 + 1}.set16
        (m.bus.memory.wordAt m.underway.cpu.regs.sp) (.ofStackIndex k) := rfl
  rw [effect.regs,popped,m.regs_underway,UInt16.add_two]

end Pair

/-- Words come back from the stack in reverse order, also from one that takes up all of memory, and with
them SP. Each push and each pop takes eight clocks, and no byte changes but those below SP. So `PUSH` and a
later `POP` copy one pair to another, whatever is done in between that leaves SP and the two bytes as they
are; F has no low nibble to keep. -/
theorem stack_of_words :
    (∀ (m : Machine FlatBus) (ws : List UInt16), 2 * ws.length ≤ 0x10000 →
      let n := ws.length
      let t := ((pushAll ws).run m).2
      let u := ((popAll n).run t).2
      ((popAll n).run t).1 = ws.reverse ∧
      t.cpu = m.cpu.stacked (m.cpu.regs.sp - 2 * UInt16.ofNat n) n ∧
      u.cpu = m.cpu.stacked m.cpu.regs.sp (2 * n) ∧
      ∀ a, (∀ k, 0 < k → k ≤ 2 * n → a ≠ m.cpu.regs.sp - UInt16.ofNat k) →
        t.bus.memory.read a = m.bus.memory.read a ∧ u.bus.memory.read a = m.bus.memory.read a) ∧
    ∀ m n : Machine FlatBus, m.cpu.fault = none → (m.cpu.halted → (Bus.interrupts m.bus).any) →
      n.cpu.fault = none → (n.cpu.halted → (Bus.interrupts n.bus).any) →
      quadrant m.opcode = twoBits 3 → low m.opcode = threeBits 5 → middle m.opcode % 2 = 0 →
      quadrant n.opcode = twoBits 3 → low n.opcode = threeBits 1 → middle n.opcode % 2 = 0 →
      let t := (step.run m).2
      let u := (step.run n).2
      let p := Reg16.ofStackIndex (pairField m.opcode)
      let q := Reg16.ofStackIndex (pairField n.opcode)
      let w := m.cpu.regs.get16 p
      n.cpu.regs.sp = t.cpu.regs.sp →
      n.bus.memory.read t.cpu.regs.sp = t.bus.memory.read t.cpu.regs.sp →
      n.bus.memory.read (t.cpu.regs.sp + 1) = t.bus.memory.read (t.cpu.regs.sp + 1) →
        u.cpu.regs =
            {n.cpu.regs with sp := m.cpu.regs.sp, pc := n.underway.cpu.regs.pc}.set16 w q ∧
          u.cpu.regs.get16 q = if q = .af then word (highByte w) (lowByte w &&& 0xF0) else w := by
  constructor
  · intro m ws fits n t u
    have pushed : t = _ := congrArg Prod.snd (run_pushAll ws m)
    have popped := run_popAll n t
    have left : u = _ := congrArg Prod.snd popped
    have cpu : t.cpu = m.cpu.stacked (m.cpu.regs.sp - 2 * UInt16.ofNat n) n := by rw [pushed]
    have memory : t.bus.memory = m.bus.memory.pushedAll m.cpu.regs.sp ws := by rw [pushed]
    have bottom : t.cpu.regs.sp = m.cpu.regs.sp - 2 * UInt16.ofNat n := by rw [cpu]; rfl
    refine ⟨?_,cpu,?_,?_⟩
    · rw [popped,bottom,memory]
      exact Memory.words_pushedAll _ _ fits
    · rw [left,bottom,cpu,Cpu.stacked_stacked,UInt16.sub_add_cancel,Nat.two_mul]
    · intro a outside
      rw [left,memory]
      exact ⟨Memory.read_pushedAll outside,Memory.read_pushedAll outside⟩
  · intro m n clear waking clear' waking' fourth field even fourth' field' even' t u p q w sp low high
    obtain ⟨down,stored⟩ := step_push clear waking (decode_push fourth field even)
    have left := step_pop clear' waking' (decode_pop fourth' field' even')
    have word : n.bus.memory.wordAt n.cpu.regs.sp = w := by
      rw [Memory.wordAt,sp,low,high,down,stored]
      exact Memory.wordAt_pushed _ _ _
    have back : n.cpu.regs.sp + 2 = m.cpu.regs.sp := by
      rw [sp,down]
      exact (stack_apart m.cpu.regs.sp).2.2
    rw [word,back] at left
    refine ⟨left,?_⟩
    rw [left]
    exact Registers.get16_set16 _ w q

/-- `PUSH BC` and `POP AF` follow each other at PC. -/
def lending (sp : UInt16) : Machine FlatBus where
  cpu := {regs := {b := 0x12, c := 0x34, sp := sp, pc := 0x0010}}
  bus := {memory := Memory.zero.store 0x0010 [0xC5,0xF1]}

/-- Two words pass the end of memory. What was C loses its low nibble on the way to F. -/
theorem stack_of_words_lending :
    let t := ((pushAll [0x1234,0xABCD]).run (lending 0x0001)).2
    let u := (popAll 2).run t
    let away := (step.run (lending 0x0040)).2
    (u.1 = [0xABCD,0x1234] ∧ t.cpu.regs.sp = 0xFFFD ∧ t.cpu.cycles = 16 ∧
      u.2.cpu.regs.sp = 0x0001 ∧ u.2.cpu.cycles = 32 ∧ u.2.bus.memory.read 0x0001 = 0) ∧
    (step.run away).2.cpu.regs.af = 0x1230 ∧ (step.run away).2.cpu.regs.sp = 0x0040 := by
  intro t u away
  obtain ⟨words,pairs⟩ := stack_of_words
  refine ⟨?_,?_⟩
  · obtain ⟨reversed,down,back,outside⟩ := words (lending 0x0001) [0x1234,0xABCD] (by decide)
    have apart : ∀ k, 0 < k → k ≤ 4 → (0x0001 : UInt16) ≠ 0x0001 - UInt16.ofNat k := by
      intro k some few
      have apart := Memory.add_ne_sub 0x0001 (d := 0) some (by omega)
      simpa using apart
    have kept := (outside 0x0001 apart).2
    have sp : t.cpu.regs.sp = 0x0001 - 2 * UInt16.ofNat 2 := congrArg (fun c => c.regs.sp) down
    exact ⟨reversed,sp.trans (by decide),congrArg Cpu.cycles down,congrArg (fun c => c.regs.sp) back,
      congrArg Cpu.cycles back,kept.trans (by decide +kernel)⟩
  · have pop : away.opcode = 0xF1 := by decide +kernel
    have push : (lending 0x0040).opcode = 0xC5 := by decide +kernel
    obtain ⟨left,-⟩ := pairs (lending 0x0040) away rfl nofun (by decide +kernel) (by decide +kernel)
      (by rw [push]; rfl) (by rw [push]; rfl) (by rw [push]; rfl)
      (by rw [pop]; rfl) (by rw [pop]; rfl) (by rw [pop]; rfl) rfl rfl rfl
    rw [left,push,pop]
    decide +kernel

end Exec

end Sm83
