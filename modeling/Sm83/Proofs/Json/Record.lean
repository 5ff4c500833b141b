import Sm83.Json.Record
import Sm83.Proofs.Json.Print

/-!
The readers for the parts of values read back what the writers write.
-/
namespace Sm83.Json.Value

theorem bind_of_read {α β : Type} {x : Option α} {f : α → Option β} {a : α} {b : β} (first : x = some a)
    (rest : f a = some b) : x >>= f = some b := by
  rw [first]
  exact rest

/-! Numbers and texts. -/

@[simp] theorem byte?_byte (b : UInt8) : (byte b).byte? = some b := by
  simp [byte,natural,byte?,below?,b.toNat_lt]

@[simp] theorem word?_word (w : UInt16) : (word w).word? = some w := by
  simp [word,natural,word?,below?,w.toNat_lt]

private theorem text?_map_char (s : List Char) : text? (s.map .char) = some s := by
  induction s with
  | nil => rfl
  | cons c s ih => rw [List.map_cons,text?,ih,Option.map_some]

@[simp] theorem text?_pieces (s : String) : text? (pieces s) = some s.toList := text?_map_char s.toList

@[simp] theorem string?_text (s : String) : (text s).string? = some s := by
  simp [text,string?,String.ofList_toList]

@[simp] theorem isTextual_byte (b : UInt8) : (byte b).IsTextual := .number _

@[simp] theorem isTextual_word (w : UInt16) : (word w).IsTextual := .number _

@[simp] theorem isTextual_text (s : String) : (text s).IsTextual := .string s.toList

/-! Containers. -/

private theorem mapM_map {α β : Type} {read : β → Option α} {write : α → β}
    (inverse : ∀ x, read (write x) = some x) (xs : List α) : (xs.map write).mapM read = some xs := by
  induction xs with
  | nil => rfl
  | cons x xs ih => simp [List.mapM_cons,inverse,ih]

section
variable {α : Type} {read : Value → Option α} {write : α → Value}

theorem list?_map (inverse : ∀ x, read (write x) = some x) (xs : List α) :
    (array (xs.map write)).list? read = some xs := by
  rw [list?,array?,Option.bind_some,mapM_map inverse]

theorem optional?_getD (inverse : ∀ x, read (write x) = some x) (filled : ∀ x, write x ≠ .null)
    (o : Option α) : ((o.map write).getD .null).optional? read = some o := by
  cases o with
  | none => rfl
  | some x =>
    have present := filled x
    rw [Option.map_some,Option.getD_some,optional?]
    · rw [inverse,Option.map_some]
    · exact present

theorem isTextual_map (textual : ∀ x, (write x).IsTextual) (xs : List α) :
    (array (xs.map write)).IsTextual := by
  apply IsTextual.array
  intro v mem
  obtain ⟨x,-,rfl⟩ := List.mem_map.mp mem
  exact textual x

end

theorem isTextual_record {fields : List (String × Value)} (textual : ∀ f ∈ fields, f.2.IsTextual) :
    (record fields).IsTextual := by
  apply IsTextual.object
  · intro f mem
    obtain ⟨g,-,rfl⟩ := List.mem_map.mp mem
    exact ⟨g.1.toList,rfl⟩
  · intro f mem
    obtain ⟨g,among,rfl⟩ := List.mem_map.mp mem
    exact textual g among

/-- A record is read as the fields it was written with, if their names are known and differ. -/
theorem record?_record {names : List String} {fields : List (String × Value)}
    (known : ∀ f ∈ fields, f.1 ∈ names) (distinct : (fields.map Prod.fst).Nodup) :
    (record fields).record? names = some fields := by
  have all : fields.filter (fun f => names.contains f.1) = fields := by
    rw [List.filter_eq_self]
    intro f mem
    exact List.contains_iff_mem.mpr (known f mem)
  have kept : (if ((fields.filter fun f => names.contains f.1).map Prod.fst).Nodup then
      some (fields.filter fun f => names.contains f.1) else none) = some fields := by
    rw [all,if_pos distinct]
  refine bind_of_read (mapM_map ?_ fields) kept
  intro f
  simp [String.ofList_toList]

end Sm83.Json.Value
