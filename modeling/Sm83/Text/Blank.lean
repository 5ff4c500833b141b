/-!
White space in the sense of Unicode, and texts without the white space around them. Main statements:
`exists_trim`, nothing but white space is taken away, and `trim_append`, all of it is.
-/
namespace Sm83.Text

def isBlank (c : Char) : Bool :=
  [0x20,0x85,0xA0,0x1680,0x2028,0x2029,0x202F,0x205F,0x3000].contains c.toNat ||
    (0x09 ≤ c.toNat && c.toNat ≤ 0x0D) || (0x2000 ≤ c.toNat && c.toNat ≤ 0x200A)

def trimEnd (cs : List Char) : List Char := (cs.reverse.dropWhile isBlank).reverse

def trim (cs : List Char) : List Char := trimEnd (cs.dropWhile isBlank)

private theorem isBlank_of_mem_takeWhile {cs : List Char} {c : Char} (member : c ∈ cs.takeWhile isBlank) :
    isBlank c := List.all_eq_true.mp List.all_takeWhile c member

theorem exists_trim (cs : List Char) : ∃ front back, cs = front ++ trim cs ++ back ∧
    (∀ c ∈ front, isBlank c) ∧ ∀ c ∈ back, isBlank c := by
  refine ⟨cs.takeWhile isBlank,((cs.dropWhile isBlank).reverse.takeWhile isBlank).reverse,?_,?_,?_⟩
  · rw [List.append_assoc,trim,trimEnd,← List.reverse_append,List.takeWhile_append_dropWhile,
      List.reverse_reverse,List.takeWhile_append_dropWhile]
  · exact fun c => isBlank_of_mem_takeWhile
  · exact fun c member => isBlank_of_mem_takeWhile (List.mem_reverse.mp member)

private theorem dropWhile_isBlank {cs : List Char} (solid : ∀ c ∈ cs, isBlank c = false) :
    cs.dropWhile isBlank = cs := by
  cases cs with
  | nil => rfl
  | cons c rest => simp [solid c List.mem_cons_self]

theorem trim_append {front body back : List Char} (before : ∀ c ∈ front, isBlank c)
    (solid : ∀ c ∈ body, isBlank c = false) (after : ∀ c ∈ back, isBlank c) :
    trim (front ++ body ++ back) = body := by
  rw [List.append_assoc,trim,List.dropWhile_append_of_pos before]
  cases body with
  | nil =>
    have gone : (back ++ []).dropWhile isBlank = [] := List.dropWhile_append_of_pos after
    rw [List.append_nil] at gone
    rw [List.nil_append,gone]
    rfl
  | cons c rest =>
    have stays : (c :: rest ++ back).dropWhile isBlank = c :: rest ++ back := by
      simp [solid c List.mem_cons_self]
    have backwards : ∀ d ∈ (c :: rest).reverse, isBlank d = false :=
      fun d member => solid d (List.mem_reverse.mp member)
    rw [stays,trimEnd,List.reverse_append,List.dropWhile_append_of_pos (by simpa using after),
      dropWhile_isBlank backwards,List.reverse_reverse]

end Sm83.Text
