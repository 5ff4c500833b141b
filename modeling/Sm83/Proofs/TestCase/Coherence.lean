import Sm83.Proofs.Cpu.Encoding
import Sm83.Proofs.TestCase.Replay

/-!
What a generated case says of memory: the accesses, the bytes before the step and the bytes after it.
Each follows from the other two, whatever the instruction reads and writes, its own code included. Main
statement: `coherent_of_generate`.
-/
namespace Sm83

private theorem Machine.stream_flat (n : Nat) (m : Machine FlatBus) :
    m.stream n = m.bus.memory.slice m.cpu.regs.pc n := by
  induction n generalizing m with
  | zero => rfl
  | succ n ih =>
    rw [stream,ih,Memory.slice]
    rfl

private theorem pairwise_insertAddress {as : List UInt16} (rising : as.Pairwise (· < ·)) (a : UInt16) :
    (insertAddress a as).Pairwise (· < ·) := by
  induction as with
  | nil => exact List.pairwise_singleton _ a
  | cons b as ih =>
    obtain ⟨below,rest⟩ := List.pairwise_cons.mp rising
    unfold insertAddress
    split
    · rename_i first
      refine List.pairwise_cons.mpr ⟨?_,rising⟩
      intro c member
      rcases List.mem_cons.mp member with rfl | later
      · exact first
      · exact UInt16.lt_trans first (below c later)
    · split
      · exact rising
      · rename_i notFirst other
        refine List.pairwise_cons.mpr ⟨?_,ih rest⟩
        intro c member
        rcases mem_insertAddress.mp member with rfl | later
        · grind
        · exact below c later

private theorem pairwise_addresses (trace : List Access) : (addresses trace).Pairwise (· < ·) := by
  suffices gathered : ∀ as : List UInt16, as.Pairwise (· < ·) →
      (trace.foldl (fun as x => insertAddress x.addr as) as).Pairwise (· < ·) from gathered [] .nil
  induction trace with
  | nil => exact fun _ rising => rising
  | cons x trace ih => exact fun as rising => ih _ (pairwise_insertAddress rising x.addr)

private theorem Memory.map_fst_cells (m : Memory) (as : List UInt16) :
    (m.cells as).map Prod.fst = as := by
  simp [cells,Function.comp_def]

/-- The byte that the last entry to write at `a` leaves there. -/
def lastWritten (a : UInt16) : List (Option Cycle) → Option UInt8
  | [] => none
  | none :: rest => lastWritten a rest
  | some c :: rest => (lastWritten a rest).or (if c.label = "-wm" ∧ c.addr = a then some c.data else none)

private theorem lastWritten_replicate (a : UInt16) (entries : List (Option Cycle)) (n : Nat) :
    lastWritten a (entries ++ List.replicate n none) = lastWritten a entries := by
  induction entries with
  | nil =>
    induction n with
    | zero => rfl
    | succ n ih => exact ih
  | cons entry rest ih => cases entry <;> simp [lastWritten,ih]

namespace FlatBus

private theorem read_follow_eq (b : FlatBus) (x : Access) (a : UInt16) :
    (Bus.follow b x).memory.read a =
      if (Cycle.ofAccess x).label = "-wm" ∧ x.addr = a then x.data else b.memory.read a := by
  obtain ⟨addr,v,kind⟩ := x
  cases kind with
  | read => rfl
  | write =>
    change (b.memory.write addr v).read a = if _ ∧ addr = a then v else _
    rw [Memory.read_write]
    simp [Cycle.ofAccess,AccessKind.label,eq_comm]

theorem read_foldl (b : FlatBus) (l : List Access) (a : UInt16) :
    (l.foldl Bus.follow b).memory.read a =
      (lastWritten a (l.map (some ∘ Cycle.ofAccess))).getD (b.memory.read a) := by
  induction l generalizing b with
  | nil => rfl
  | cons x l ih =>
    rw [List.foldl_cons,ih,read_follow_eq,List.map_cons,Function.comp_apply,lastWritten]
    cases lastWritten a (l.map (some ∘ Cycle.ofAccess)) with
    | some v => rfl
    | none =>
      rw [Option.none_or]
      exact (apply_ite (Option.getD · (b.memory.read a)) _ (some x.data) none).symm

end FlatBus

private theorem Memory.length_slice (m : Memory) (a : UInt16) (n : Nat) : (m.slice a n).length = n := by
  induction n generalizing a with
  | zero => rfl
  | succ n ih => rw [slice,List.length_cons,ih]

namespace TestCase

private theorem toList_nameOf (bytes : List UInt8) : (nameOf bytes).toList =
    [' '].intercalate (bytes.map fun b => [(b.toNat / 16).digitChar,(b.toNat % 16).digitChar]) := by
  have digits : ∀ i : Fin 256, (Text.lowerHex 2 (UInt8.ofFin i).toNat).toList =
      [((UInt8.ofFin i).toNat / 16).digitChar,((UInt8.ofFin i).toNat % 16).digitChar] := by
    decide +kernel
  rw [nameOf,String.toList_intercalate,List.map_map]
  congr 1
  exact List.map_congr_left fun b _ => digits b.toFin

private theorem cyclesOf_of_le {trace : List Access} {clocks : Nat} (fits : trace.length ≤ clocks / 4) :
    cyclesOf trace clocks =
      trace.map (some ∘ Cycle.ofAccess) ++ List.replicate (clocks / 4 - trace.length) none := by
  rw [cyclesOf]
  apply List.take_of_length_le
  rw [List.length_append,List.length_map,List.length_replicate]
  omega

private theorem exists_access {trace : List Access} {n : Nat} {c : Cycle}
    {before rest : List (Option Cycle)}
    (split : trace.map (some ∘ Cycle.ofAccess) ++ List.replicate n none = before ++ some c :: rest) :
    ∃ front x back, trace = front ++ x :: back ∧ front.map (some ∘ Cycle.ofAccess) = before ∧
      Cycle.ofAccess x = c := by
  -- it is no padding, neither behind the padding nor at its start
  rcases List.append_eq_append_iff.mp split with ⟨padding,-,empty⟩ | ⟨entries,made,tail⟩
  · have member : some c ∈ List.replicate n (none : Option Cycle) := by
      rw [empty]
      exact List.mem_append_right _ List.mem_cons_self
    cases (List.mem_replicate.mp member).2
  · cases entries with
    | nil =>
      have member : some c ∈ List.replicate n (none : Option Cycle) := by
        rw [List.nil_append] at tail
        rw [← tail]
        exact List.mem_cons_self
      cases (List.mem_replicate.mp member).2
    | cons entry entries =>
      obtain ⟨front,others,rfl,same,more⟩ := List.map_eq_append_iff.mp made
      obtain ⟨x,back,rfl,told,-⟩ := List.map_eq_cons_iff.mp more
      cases (List.cons.inj tail).1
      exact ⟨front,x,back,rfl,same,Option.some.inj told⟩

end TestCase

namespace Draw
variable {d : Draw} {op : Opcode} {clocks : Nat} {after : Machine FlatBus}

private theorem length_eq (d : Draw) (op : Opcode) : op.length = opcodeLength (d.flat op).opcode := by
  rw [opcode_flat]
  cases op with
  | primary byte => rfl
  | prefixed byte =>
    change 2 = opcodeLength 0xCB
    decide

private theorem encoding_isPrefix (d : Draw) (op : Opcode) :
    op.encoding <+: (d.program op).slice d.pc op.length := by
  have first : (d.program op).read d.pc = op.encoding.head _ := d.opcode_flat op
  cases op with
  | primary byte =>
    obtain ⟨n,length⟩ : ∃ n, opcodeLength byte = n + 1 := by
      cases decoded : Instr.decode byte with
      | none => exact ⟨0,by rw [opcodeLength_eq,decoded]; rfl⟩
      | some i => exact ⟨_,opcodeLength_of_decode decoded⟩
    rw [Opcode.length,length,Memory.slice,first]
    exact List.prefix_append [byte] _
  | prefixed byte =>
    have second : (d.program (.prefixed byte)).read (d.pc + 1) = byte := by
      simp [program,Opcode.encoding,Memory.store,Memory.read_write]
    change [0xCB,byte] <+: [_,_]
    rw [first,second]
    exact List.prefix_rfl

private theorem exists_data (run : Exec.step.run (d.flat op) = (.ok clocks,after)) :
    (d.trace op).length ≤ clocks / 4 ∧
      ∃ data, d.trace op = Access.fetches d.pc ((d.program op).slice d.pc op.length) ++ data := by
  cases Exec.course_of_step run with
  | asleep clear halted => cases halted
  | executed i clear awake decoded =>
    obtain ⟨data,t,step,made,-,cycles,-⟩ := Exec.outline_step clear awake decoded
    have pc : (d.flat op).underway.cpu.regs.pc = d.pc + 1 := (d.flat op).pc_underway
    have length : op.length = i.operandBytes + 1 := by rw [d.length_eq,opcodeLength_of_decode decoded]
    have bytes : (d.program op).slice d.pc op.length =
        (d.flat op).opcode :: (d.flat op).underway.stream i.operandBytes := by
      rw [length,Memory.slice,Machine.stream_flat,pc]
      rfl
    have spent := Except.ok.inj (congrArg Prod.fst (run.symm.trans step))
    constructor
    · rw [trace,made,spent,cycles,List.length_cons,List.length_append,Access.length_fetches,
        Machine.length_stream]
      omega
    · refine ⟨data,?_⟩
      rw [trace,made,bytes,pc]
      rfl

private theorem data_of_trace {front back : List Access} {x : Access}
    (split : d.trace op = front ++ x :: back) (reads : x.kind = .read) : x.data =
      (lastWritten x.addr (front.map (some ∘ Cycle.ofAccess))).getD ((d.program op).read x.addr) := by
  have gives := Routine.step.gives (d.flat op)
  change Bus.Gives _ (d.trace op) at gives
  rw [split,Bus.gives_append] at gives
  exact (gives.2.1 reads).trans (FlatBus.read_foldl _ front x.addr)

private theorem read_after (run : Exec.step.run (d.flat op) = (.ok clocks,after)) (a : UInt16) :
    after.bus.memory.read a =
      (lastWritten a ((d.trace op).map (some ∘ Cycle.ofAccess))).getD ((d.program op).read a) := by
  have left := Routine.step.bus_run (d.flat op)
  rw [run] at left
  rw [left]
  exact FlatBus.read_foldl _ (d.trace op) a

end Draw

namespace TestCase

/-- The case tells of one step, and what it tells of memory is of a piece. -/
structure Coherent (op : Opcode) (d : Draw) (t : TestCase) : Prop where
  /-- The entries are all the accesses of the step, in order, and then empty ones. -/
  complete : ∃ clocks after, Exec.step.run (d.machine op) = (.ok clocks,after) ∧
    after.bus.trace.size ≤ clocks / 4 ∧ t.cycles = after.bus.trace.toList.map (some ∘ Cycle.ofAccess) ++
      List.replicate (clocks / 4 - after.bus.trace.size) none
  rising : (t.initial.ram.map Prod.fst).Pairwise (· < ·)
  alike : t.expected.ram.map Prod.fst = t.initial.ram.map Prod.fst
  listed : ∀ a, a ∈ t.initial.ram.map Prod.fst ↔ ∃ c, some c ∈ t.cycles ∧ c.addr = a
  /-- What is read was written before, or has been there from the start. -/
  reads : ∀ before c rest, t.cycles = before ++ some c :: rest → c.label = "r-m" →
    ∃ v, (c.addr,v) ∈ t.initial.ram ∧ c.data = (lastWritten c.addr before).getD v
  /-- What is left was written last, or has been there from the start. -/
  leaves : ∀ a v, (a,v) ∈ t.expected.ram →
    ∃ w, (a,w) ∈ t.initial.ram ∧ v = (lastWritten a t.cycles).getD w
  /-- The name shows the bytes of the instruction, which are the first to be read. -/
  named : ∃ bytes, bytes.length = op.length ∧ op.encoding <+: bytes ∧
    (Access.fetches t.initial.pc bytes).map (some ∘ Cycle.ofAccess) <+: t.cycles ∧
    t.name.toList =
      [' '].intercalate (bytes.map fun b => [(b.toNat / 16).digitChar,(b.toNat % 16).digitChar])

theorem exists_run {op : Opcode} {d : Draw} {t : TestCase} (made : generate op d = .ok t) :
    ∃ clocks after, Exec.step.run (d.flat op) = (.ok clocks,after) := by
  cases run : Exec.step.run (d.flat op) with
  | mk result after =>
    cases result with
    | ok clocks => exact ⟨clocks,after,rfl⟩
    | error fault =>
      rw [generate] at made
      simp only [Draw.run_machine,run] at made
      cases made

theorem coherent_of_made {op : Opcode} {d : Draw} {t : TestCase} (made : generate op d = .ok t) :
    Coherent op d t := by
  obtain ⟨clocks,after,run⟩ := exists_run made
  cases (Draw.generate_eq run).symm.trans made
  obtain ⟨fits,data,fetches⟩ := Draw.exists_data run
  have entries := cyclesOf_of_le fits
  have cell {a : UInt16} (among : a ∈ addresses (d.trace op)) :
      (a,(d.program op).read a) ∈ (d.initial op).ram := Memory.mem_cells.mpr ⟨among,rfl⟩
  refine ⟨⟨clocks,⟨after.cpu,⟨after.bus,(d.trace op).toArray⟩⟩,?_,fits,entries⟩,?_,?_,?_,?_,?_,?_⟩
  · rw [Draw.run_machine,run]
  · change (((d.program op).cells _).map Prod.fst).Pairwise _
    rw [Memory.map_fst_cells]
    exact pairwise_addresses _
  · change (after.bus.memory.cells _).map Prod.fst = ((d.program op).cells _).map Prod.fst
    rw [Memory.map_fst_cells,Memory.map_fst_cells]
  · intro a
    change a ∈ ((d.program op).cells _).map Prod.fst ↔ ∃ c, some c ∈ cyclesOf (d.trace op) clocks ∧ _
    rw [Memory.map_fst_cells,mem_addresses,entries]
    constructor
    · rintro ⟨x,member,rfl⟩
      exact ⟨.ofAccess x,List.mem_append_left _ (List.mem_map_of_mem member),rfl⟩
    · rintro ⟨c,member,rfl⟩
      obtain ⟨before,rest,split⟩ := List.append_of_mem member
      obtain ⟨front,x,back,trace,-,rfl⟩ := exists_access split
      exact ⟨x,by simp [trace],rfl⟩
  · intro before c rest split read
    change cyclesOf _ _ = _ at split
    rw [entries] at split
    obtain ⟨front,x,back,trace,rfl,rfl⟩ := exists_access split
    have member : x ∈ d.trace op := by simp [trace]
    have reads : x.kind = .read := by
      cases kind : x.kind with
      | read => rfl
      | write => simp [Cycle.ofAccess,kind,AccessKind.label] at read
    exact ⟨_,cell (mem_addresses.mpr ⟨x,member,rfl⟩),Draw.data_of_trace trace reads⟩
  · intro a v member
    obtain ⟨among,rfl⟩ := Memory.mem_cells.mp member
    refine ⟨_,cell among,?_⟩
    rw [Draw.read_after run,entries,lastWritten_replicate]
  · refine ⟨_,?_,d.encoding_isPrefix op,?_,toList_nameOf _⟩
    · exact Memory.length_slice _ _ _
    · change _ <+: cyclesOf (d.trace op) clocks
      rw [entries,fetches,List.map_append,List.append_assoc]
      exact List.prefix_append _ _

private theorem exists_draw_of_mem {ρ : Type} (source : RandomSource (StateM ρ)) {op : Opcode}
    {t : TestCase} (n : Nat) {start : ρ} (member : t ∈ ((generateMany source op n).run start).1.1) :
    ∃ d, generate op d = .ok t := by
  induction n generalizing start with
  | zero => cases member
  | succ n ih =>
    rw [generateMany,StateT.run_bind] at member
    dsimp only [bind] at member
    cases made : generate op ((source.draw op).run start).1 with
    | error fault =>
      rw [made] at member
      cases member
    | ok u =>
      rw [made] at member
      rcases List.mem_cons.mp member with rfl | later
      · exact ⟨_,made⟩
      · exact ih later

/-- Every case that is made, of whatever opcode and from whatever draw, is coherent, and so is every
case that any random source leads to; a catalogued opcode gives a full number of them. -/
theorem coherent_of_generate (op : Opcode) {ρ : Type} (source : RandomSource (StateM ρ)) (start : ρ) :
    (∀ d t, generate op d = .ok t → Coherent op d t) ∧
    (∀ n t, t ∈ ((generateMany source op n).run start).1.1 →
      ∃ d, generate op d = .ok t ∧ Coherent op d t) ∧
    (op ∈ Opcode.catalogue → (∀ d, ∃ t, generate op d = .ok t) ∧
      ((generateMany source op Generator.casesPerFile).run start).1.1.length = 1000) := by
  refine ⟨fun d t => coherent_of_made,?_,?_⟩
  · intro n t member
    obtain ⟨d,made⟩ := exists_draw_of_mem source n member
    exact ⟨d,made,coherent_of_made made⟩
  · intro catalogued
    obtain ⟨cases,made,length,-⟩ := generateMany_run source catalogued Generator.casesPerFile start
    constructor
    · intro d
      obtain ⟨t,-,-,generated,-⟩ := exists_generate catalogued d
      exact ⟨t,generated⟩
    · rw [made]
      exact length

/-- An increment whose operand is its own opcode. -/
def selfModifying : Draw :=
  { memory := .zero, af := 0, bc := 0, de := 0, hl := 0, sp := 0, pc := 0, ime := true }

theorem coherent_of_generate_selfModifying : Opcode.primary 0x34 ∈ Opcode.catalogue ∧
    ∃ t, generate (.primary 0x34) selfModifying = .ok t ∧ Coherent (.primary 0x34) selfModifying t ∧
      t.initial.ram = [(0,0x34)] ∧ t.expected.ram = [(0,0x35)] ∧
      t.cycles = [some ⟨0,0x34,"r-m"⟩,some ⟨0,0x34,"r-m"⟩,some ⟨0,0x35,"-wm"⟩] := by
  have catalogued : Opcode.primary 0x34 ∈ Opcode.catalogue := by
    rw [Opcode.mem_catalogue_iff]
    decide
  obtain ⟨coherent,-,full⟩ := coherent_of_generate (.primary 0x34) (Script.source ⟨#[],#[]⟩) {}
  obtain ⟨t,made⟩ := (full catalogued).1 selfModifying
  have told : (generate (.primary 0x34) selfModifying).toOption.map
      (fun t => (t.initial.ram,t.expected.ram,t.cycles)) =
      some ([(0,0x34)],[(0,0x35)],[some ⟨0,0x34,"r-m"⟩,some ⟨0,0x34,"r-m"⟩,some ⟨0,0x35,"-wm"⟩]) := by
    decide +kernel
  rw [made] at told
  obtain ⟨before,after,entries⟩ := by simpa [Except.toOption] using told
  exact ⟨catalogued,t,made,coherent _ _ made,before,after,entries⟩

end TestCase
end Sm83
