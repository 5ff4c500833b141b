import Mathlib.Data.List.TakeDrop
import Sm83.Path

/-!
The name of a path is what stands between the last slash that matters and the end, or the slashes and single
dots before the end (`fileName?_eq_some_iff`). What is appended to a path stands at the end of the name.
-/
namespace Sm83.Path

/-- What leads nowhere behind a name. -/
inductive Trailing : List UInt8 → Prop
  | nil : Trailing []
  | slash {rest : List UInt8} (trails : Trailing rest) : Trailing (Path.slash :: rest)
  | stay {rest : List UInt8} (trails : Trailing rest) : Trailing (Path.slash :: dot :: rest)

structure EndsIn (path : Path) (name : List UInt8) : Prop where
  moves : staysInPlace name = false
  whole : slash ∉ name
  placed : ∃ front rest, path.bytes = front ++ (name ++ rest) ∧ (front = [] ∨ [slash] <:+ front) ∧
    Trailing rest

private theorem not_mem_of_mem_splitOn {x : UInt8} {bytes part : List UInt8}
    (member : part ∈ bytes.splitOn x) : x ∉ part := by
  induction bytes generalizing part with
  | nil =>
    rw [List.splitOn_nil,List.mem_singleton] at member
    rw [member]
    exact List.not_mem_nil
  | cons b bytes ih =>
    obtain ⟨first,others,parts⟩ := List.exists_cons_of_ne_nil (List.splitOn_ne_nil x bytes)
    rw [parts] at ih
    rw [List.splitOn_cons_eq_if_modifyHead,parts] at member
    split at member
    · rcases List.mem_cons.mp member with rfl | member
      · exact List.not_mem_nil
      · exact ih member
    · rename_i other
      rcases List.mem_cons.mp member with rfl | member
      · intro inside
        rcases List.mem_cons.mp inside with same | inside
        · exact other (beq_iff_eq.mpr same.symm)
        · exact ih List.mem_cons_self inside
      · exact ih (List.mem_cons_of_mem first member)

private theorem exists_splitOn_of_trailing {rest : List UInt8} (trails : Trailing rest) :
    ∃ parts, (∀ part ∈ parts, staysInPlace part) ∧
      ∀ name, slash ∉ name → (name ++ rest).splitOn slash = name :: parts := by
  induction trails with
  | nil =>
    refine ⟨[],nofun,fun name whole => ?_⟩
    rw [List.append_nil]
    exact List.splitOn_eq_singleton whole
  | slash _ ih =>
    obtain ⟨parts,stay,split⟩ := ih
    refine ⟨[] :: parts,List.forall_mem_cons.mpr ⟨rfl,stay⟩,fun name whole => ?_⟩
    rw [List.splitOn_append_cons_self_of_not_mem whole]
    exact congrArg _ (split [] List.not_mem_nil)
  | stay _ ih =>
    obtain ⟨parts,stay,split⟩ := ih
    refine ⟨[dot] :: parts,List.forall_mem_cons.mpr ⟨rfl,stay⟩,fun name whole => ?_⟩
    rw [List.splitOn_append_cons_self_of_not_mem whole]
    exact congrArg _ (split [dot] (by decide))

private theorem exists_trailing_of_parts {parts : List (List UInt8)}
    (stay : ∀ part ∈ parts, staysInPlace part) :
    ∃ rest, Trailing rest ∧ ∀ name, [slash].intercalate (name :: parts) = name ++ rest := by
  induction parts with
  | nil => exact ⟨[],.nil,fun name => by rw [List.intercalate_singleton,List.append_nil]⟩
  | cons part parts ih =>
    obtain ⟨here,others⟩ := List.forall_mem_cons.mp stay
    obtain ⟨rest,trails,joined⟩ := ih others
    refine ⟨slash :: (part ++ rest),?_,fun name => ?_⟩
    · simp only [staysInPlace,Bool.or_eq_true,beq_iff_eq] at here
      rcases here with rfl | rfl
      · exact .slash trails
      · exact .stay trails
    · rw [List.intercalate_cons_cons,joined,List.append_assoc]
      rfl

private theorem exists_front_of_parts (parts : List (List UInt8)) :
    ∃ front, (front = [] ∨ [slash] <:+ front) ∧
    ∀ name more, [slash].intercalate (parts ++ name :: more) = front ++ [slash].intercalate (name :: more) := by
  induction parts with
  | nil => exact ⟨[],.inl rfl,fun _ _ => rfl⟩
  | cons part parts ih =>
    obtain ⟨front,ends,joined⟩ := ih
    refine ⟨part ++ slash :: front,.inr ?_,fun name more => ?_⟩
    · rcases ends with rfl | ends
      · exact List.suffix_append part [slash]
      · exact (ends.trans (List.suffix_cons slash front)).trans (List.suffix_append part _)
    · rw [List.cons_append,List.intercalate_cons_of_ne_nil (by simp),joined]
      simp

theorem endsIn_iff {path : Path} {name : List UInt8} : path.EndsIn name ↔
    ∃ parts stays, path.bytes.splitOn slash = parts ++ name :: stays ∧ staysInPlace name = false ∧
      ∀ part ∈ stays, staysInPlace part := by
  constructor
  · rintro ⟨moves,whole,front,rest,bytes,ends,trails⟩
    obtain ⟨stays,stay,split⟩ := exists_splitOn_of_trailing trails
    rw [bytes]
    rcases ends with rfl | ⟨first,rfl⟩
    · exact ⟨[],stays,split name whole,moves,stay⟩
    · refine ⟨first.splitOn slash,stays,?_,moves,stay⟩
      rw [List.append_assoc,List.singleton_append,List.splitOn_append_cons_self,split name whole]
  · rintro ⟨parts,stays,split,moves,stay⟩
    obtain ⟨rest,trails,joined⟩ := exists_trailing_of_parts stay
    obtain ⟨front,ends,fronted⟩ := exists_front_of_parts parts
    -- joined with slashes, the parts are the path again
    have member : name ∈ path.bytes.splitOn slash := split ▸ List.mem_append_right _ List.mem_cons_self
    have bytes : [slash].intercalate (path.bytes.splitOn slash) = path.bytes := List.intercalate_splitOn slash
    rw [split,fronted,joined] at bytes
    exact ⟨moves,not_mem_of_mem_splitOn member,front,rest,bytes.symm,ends,trails⟩

private theorem getLast?_filter_eq_some_iff {α : Type} {p : α → Bool} {xs : List α} {x : α} :
    (xs.filter p).getLast? = some x ↔ ∃ as bs, xs = as ++ x :: bs ∧ p x ∧ ∀ b ∈ bs, p b = false := by
  rw [List.getLast?_filter,List.find?_eq_some_iff_append]
  constructor
  · rintro ⟨kept,bs,as,reversed,dropped⟩
    refine ⟨as.reverse,bs.reverse,?_,kept,?_⟩
    · rw [← List.reverse_inj,reversed]
      simp
    · simpa using dropped
  · rintro ⟨as,bs,rfl,kept,dropped⟩
    exact ⟨kept,bs.reverse,as.reverse,by simp,by simpa using dropped⟩

private theorem getLast?_parts_eq_some_iff {path : Path} {name : List UInt8} :
    ((path.bytes.splitOn slash).filter fun part => !staysInPlace part).getLast? = some name ↔
      path.EndsIn name := by
  simp only [getLast?_filter_eq_some_iff,endsIn_iff,Bool.not_eq_true',Bool.not_eq_false']

theorem EndsIn.unique {path : Path} {name other : List UInt8} (ends : path.EndsIn name)
    (again : path.EndsIn other) : name = other :=
  Option.some.inj ((getLast?_parts_eq_some_iff.mpr ends).symm.trans (getLast?_parts_eq_some_iff.mpr again))

theorem fileName?_eq_some_iff {path : Path} {name : List UInt8} :
    path.fileName? = some name ↔ path.EndsIn name ∧ name ≠ [dot,dot] := by
  rw [fileName?,← getLast?_parts_eq_some_iff]
  cases ((path.bytes.splitOn slash).filter fun part => !staysInPlace part).getLast? with
  | none => simp
  | some found =>
    by_cases up : found = [dot,dot]
    · simp only [up,↓reduceIte,reduceCtorEq,Option.some.injEq,false_iff,not_and,not_not]
      exact Eq.symm
    · simp only [if_neg up,Option.some.injEq]
      exact ⟨fun same => ⟨same,same ▸ up⟩,And.left⟩

private theorem exists_stem (bytes : List UInt8) :
    ∃ front stem, bytes = front ++ stem ∧ (front = [] ∨ [slash] <:+ front) ∧ slash ∉ stem := by
  induction bytes with
  | nil => exact ⟨[],[],rfl,.inl rfl,List.not_mem_nil⟩
  | cons b bytes ih =>
    obtain ⟨front,stem,rfl,rfl | ends,whole⟩ := ih
    · by_cases parts : b = slash
      · exact ⟨[b],stem,rfl,.inr (parts ▸ List.suffix_refl _),whole⟩
      · exact ⟨[],b :: stem,rfl,.inl rfl,mt List.mem_cons.mp (not_or.mpr ⟨Ne.symm parts,whole⟩)⟩
    · exact ⟨b :: front,stem,rfl,.inr (ends.trans (List.suffix_cons b front)),whole⟩

private theorem moves_of_long {name : List UInt8} (long : 2 < name.length) :
    staysInPlace name = false ∧ name ≠ [dot,dot] := by
  have short : ∀ other ∈ [[],[dot],[dot,dot]], name ≠ other := by
    rintro other member rfl
    have bounded : ∀ part ∈ [[],[dot],[dot,dot]], part.length ≤ 2 := by decide
    have := bounded _ member
    omega
  simp only [List.forall_mem_cons] at short
  obtain ⟨filled,moves,downwards,-⟩ := short
  exact ⟨by simp [staysInPlace,filled,moves],downwards⟩

private theorem exists_fileName?_append (bytes : List UInt8) {ending : List UInt8}
    (whole : slash ∉ ending) (long : 2 < ending.length) :
    ∃ stem, (Path.mk (bytes ++ ending)).fileName? = some (stem ++ ending) := by
  obtain ⟨front,stem,rfl,ends,before⟩ := exists_stem bytes
  have longer : 2 < (stem ++ ending).length := by
    rw [List.length_append]
    omega
  obtain ⟨moves,downwards⟩ := moves_of_long longer
  have part : slash ∉ stem ++ ending := fun member => (List.mem_append.mp member).elim before whole
  have placed : front ++ stem ++ ending = front ++ (stem ++ ending ++ []) := by simp
  exact ⟨stem,fileName?_eq_some_iff.mpr ⟨⟨moves,part,front,[],placed,ends,.nil⟩,downwards⟩⟩

private theorem span_append {α : Type} {p : α → Bool} {x : α} {front : List α} (all : ∀ y ∈ front, p y)
    (stop : p x = false) (rest : List α) : (front ++ x :: rest).span p = (front,x :: rest) := by
  rw [List.span_eq_takeWhile_dropWhile,List.takeWhile_append_of_pos all,List.dropWhile_append_of_pos all]
  simp [stop]

theorem nameExtension?_append {stem : List UInt8} (after : List UInt8) (filled : stem ≠ [])
    (dotless : dot ∉ after) : nameExtension? (stem ++ dot :: after) = some after := by
  have span : (stem ++ dot :: after).reverse.span (· ≠ dot) = (after.reverse,dot :: stem.reverse) := by
    rw [List.reverse_append,List.reverse_cons,List.append_assoc,List.singleton_append]
    apply span_append
    · intro y mem
      rw [List.mem_reverse] at mem
      have other : y ≠ dot := fun same => dotless (same ▸ mem)
      simpa using other
    · simp
  obtain ⟨b,bs,backwards⟩ := List.exists_cons_of_ne_nil (mt List.reverse_eq_nil_iff.mp filled)
  rw [nameExtension?,span,backwards]
  simp

theorem exists_fileName?_coe (text ending : String) (whole : slash ∉ (ending : Path).bytes)
    (long : 2 < (ending : Path).bytes.length) :
    ∃ name, ((text ++ ending : String) : Path).fileName? = some name ∧ (ending : Path).bytes <:+ name := by
  obtain ⟨stem,file⟩ := exists_fileName?_append (text : Path).bytes whole long
  have bytes : ((text ++ ending : String) : Path) = ⟨(text : Path).bytes ++ (ending : Path).bytes⟩ := by
    simp [String.toByteArray_append,ByteArray.data_append]
  exact ⟨_,bytes ▸ file,List.suffix_append stem _⟩

end Sm83.Path
