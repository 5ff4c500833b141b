import Sm83.Proofs.Cpu.Step

/-!
What a step of the processor stores. Main statement: `Course.stores`, a step writes at most one
byte, or the two bytes of a word side by side.
-/
namespace Sm83

def Access.Stores (l : List Access) : Prop :=
  (l.filter isWrite).length ≤ 1 ∨
    ∃ x y, l.filter isWrite = [x,y] ∧ (y.addr = x.addr + 1 ∨ x.addr = y.addr + 1)

namespace Exec
variable {σ : Type} [Bus σ]
open Access

theorem stores_push (a : UInt16) (u v : UInt8) : Stores [⟨a - 1,u,.write⟩,⟨a - 1 - 1,v,.write⟩] := by
  refine .inr ⟨_,_,rfl,.inr ?_⟩
  simp

private theorem stores_append {l k : List Access} (quiet : (l.filter isWrite).length ≤ 0)
    (stores : Stores k) : Stores (l ++ k) := by
  have none := List.eq_nil_of_length_eq_zero (Nat.le_zero.mp quiet)
  rw [Stores,List.filter_append,none]
  exact stores

theorem stores_execute (i : Instr) (m : Machine σ) : Stores (accesses (fun _ => execute i) m) := by
  have few := (Routine.execute i).length_writes_le m
  cases i with
  | push p => exact stores_push _ _ _
  | rst target => exact stores_push _ _ _
  | storeSP => exact .inr ⟨⟨_,_,.write⟩,⟨_,_,.write⟩,rfl,.inl rfl⟩
  | call cond =>
    have rest (a : UInt16) : Routine RegsOnly 2 fun σ => taken (σ := σ) cond >>= fun b =>
        if b then callTo a else pure () :=
      (Routine.taken cond).bind fun b => Routine.branch (Routine.callTo a) b
    change Stores (accesses (fun σ => fetchWord >>= fun a => taken (σ := σ) cond >>= fun b =>
      if b then callTo a else pure ()) m)
    rw [Routine.accesses_bind Routine.fetchWord rest]
    refine stores_append (Routine.fetchWord.length_writes_le m) ?_
    rw [Routine.accesses_bind (Routine.taken cond) fun b => Routine.branch (Routine.callTo _) b]
    refine stores_append ((Routine.taken cond).length_writes_le _) ?_
    split
    · exact stores_push _ _ _
    · exact .inl (Nat.zero_le _)
  | _ => exact .inl few

theorem Course.stores {m t : Machine σ} {result : Except Fault Nat} (course : Course m result t) :
    Stores (accesses (fun _ => step) m) := by
  cases course with
  | latched _ _ made | asleep _ _ _ made =>
    rw [made]
    exact .inl (Nat.zero_le _)
  | refused _ _ _ made =>
    rw [made]
    exact .inl (Nat.zero_le _)
  | executed i _ _ _ made =>
    rw [made,← List.singleton_append]
    exact stores_append (Nat.zero_le _) (stores_execute i m.underway)

end Exec
end Sm83
