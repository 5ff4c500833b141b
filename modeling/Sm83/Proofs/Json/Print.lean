import Mathlib.Tactic.IntervalCases
import Sm83.Json.Value

/-!
Printed values read back: `parse?_print`. The lexer makes the tokens of a value out of its text,
whatever the depth at which it is printed, and the parser makes the value out of its tokens.
-/
namespace Sm83.Json

namespace Value

mutual

def tokens : Value → List Token
  | .null => [.null]
  | .bool b => [.bool b]
  | .number n => [.number n]
  | .string s => [.string s]
  | .array items => [.openArray] ++ itemTokens true items ++ [.closeArray]
  | .object fields => [.openObject] ++ fieldTokens true fields ++ [.closeObject]

def itemTokens (first : Bool) : List Value → List Token
  | [] => []
  | v :: vs => (if first then [] else [.comma]) ++ v.tokens ++ itemTokens false vs

def fieldTokens (first : Bool) : List (List Piece × Value) → List Token
  | [] => []
  | (key,v) :: fields =>
    (if first then [] else [.comma]) ++ [.string key,.colon] ++ v.tokens ++ fieldTokens false fields

end

inductive IsTextual : Value → Prop
  | null : IsTextual .null
  | bool (b : Bool) : IsTextual (.bool b)
  | number (n : Number) : IsTextual (.number n)
  | string (s : List Char) : IsTextual (.string (s.map .char))
  | array {items : List Value} (each : ∀ v ∈ items, IsTextual v) : IsTextual (.array items)
  | object {fields : List (List Piece × Value)} (keys : ∀ f ∈ fields, ∃ s : List Char, f.1 = s.map .char)
      (each : ∀ f ∈ fields, IsTextual f.2) : IsTextual (.object fields)

end Value

namespace Lexer
variable {ts : List Token} {ps : List Piece} {cs rest : List Char}

/-- The tokens of a text that goes on after `ts`, which stand in reverse order. -/
def readAfter (ts : List Token) (cs : List Char) : Option (List Token) :=
  (scanFrom ⟨ts,.between⟩ cs).bind finish

private theorem readAfter_append {us : List Token} (scan : scanFrom ⟨ts,.between⟩ cs = some ⟨us,.between⟩)
    (rest : List Char) : readAfter ts (cs ++ rest) = readAfter us rest := by
  rw [readAfter,scanFrom_append,scan,Option.bind_some,readAfter]

private theorem scanFrom_cons {l m : Lexer} {c : Char} (step : l.step c = some m) (cs : List Char) :
    l.scanFrom (c :: cs) = m.scanFrom cs := by
  rw [scanFrom,List.foldlM_cons,step]
  rfl

/-! Blanks. -/

private theorem scanFrom_newLine (ts : List Token) (depth : Nat) :
    scanFrom ⟨ts,.between⟩ (Value.newLine depth) = some ⟨ts,.between⟩ := by
  have blanks (n : Nat) : scanFrom ⟨ts,.between⟩ (List.replicate n ' ') = some ⟨ts,.between⟩ := by
    induction n with
    | zero => rfl
    | succ n ih => rwa [List.replicate_succ,scanFrom_cons (m := ⟨ts,.between⟩) rfl]
  rw [Value.newLine,scanFrom_cons (m := ⟨ts,.between⟩) rfl,blanks]

private theorem readAfter_separator (first : Bool) (depth : Nat) (rest : List Char) :
    readAfter ts (Value.separator first depth ++ rest) =
      readAfter (if first then ts else .comma :: ts) rest := by
  apply readAfter_append
  cases first with
  | true => exact scanFrom_newLine ts depth
  | false =>
    rw [Value.separator]
    exact (scanFrom_cons (m := ⟨.comma :: ts,.between⟩) rfl _).trans (scanFrom_newLine _ depth)

/-! Strings. -/

private theorem scanFrom_code {a b c d : Nat} {first second third fourth : Char}
    (digits : [first,second,third,fourth].map hexDigit? = [some a,some b,some c,some d]) :
    scanFrom ⟨ts,.code ps 4 0⟩ [first,second,third,fourth] =
      some ⟨ts,.text (.ofUnit (((a * 16 + b) * 16 + c) * 16 + d) :: ps)⟩ := by
  simp only [List.map_cons,List.map_nil,List.cons.injEq,and_true] at digits
  obtain ⟨one,two,three,four⟩ := digits
  simp [scanFrom,step,one,two,three,four]

private theorem map_hexDigit_control : ∀ n < 0x20, ∃ third fourth,
    (Text.lowerHex 4 n).toList = ['0','0',third,fourth] ∧
      ['0','0',third,fourth].map hexDigit? = [some 0,some 0,some (n / 16),some (n % 16)] := by
  intro n small
  refine ⟨(n / 16).digitChar,(n % 16).digitChar,?_⟩
  revert n
  decide +kernel

private theorem scanFrom_escapeChar (c : Char) :
    scanFrom ⟨ts,.text ps⟩ (Value.escapeChar c) = some ⟨ts,.text (.char c :: ps)⟩ := by
  by_cases lettered : c ∈ ['"','\\','\x08','\x0c','\n','\r','\t']
  · simp only [List.mem_cons,List.not_mem_nil,or_false] at lettered
    rcases lettered with rfl | rfl | rfl | rfl | rfl | rfl | rfl <;> rfl
  simp only [List.mem_cons,List.not_mem_nil,or_false,not_or] at lettered
  simp only [Value.escapeChar,lettered,↓reduceIte]
  split
  · rename_i control
    obtain ⟨third,fourth,spelt,digits⟩ := map_hexDigit_control c.toNat control
    have value : ((0 * 16 + 0) * 16 + c.toNat / 16) * 16 + c.toNat % 16 = c.toNat := by omega
    have unit : Piece.ofUnit c.toNat = .char c := by
      have valid : c.toNat.isValidChar := c.valid
      rw [Piece.ofUnit,if_pos valid,Char.ofNat_toNat]
    rw [spelt,List.cons_append,List.cons_append,List.nil_append,
      scanFrom_cons (m := ⟨ts,.escape ps⟩) rfl,scanFrom_cons (m := ⟨ts,.code ps 4 0⟩) rfl,
      scanFrom_code digits,value,unit]
  · rename_i plain
    simp [scanFrom,step,lettered,plain]

private theorem scanFrom_pieces (s : List Char) :
    scanFrom ⟨ts,.text ps⟩ ((s.map .char).flatMap Value.escapePiece) =
      some ⟨ts,.text ((s.map .char).reverse ++ ps)⟩ := by
  induction s generalizing ps with
  | nil => rfl
  | cons c s ih =>
    rw [List.map_cons,List.flatMap_cons,Value.escapePiece,scanFrom_append,scanFrom_escapeChar,
      Option.bind_some,ih,List.reverse_cons,List.append_assoc,List.singleton_append]

private theorem readAfter_printString (s : List Char) (rest : List Char) :
    readAfter ts (Value.printString (s.map .char) ++ rest) = readAfter (.string (s.map .char) :: ts) rest := by
  apply readAfter_append
  rw [Value.printString,List.append_assoc,List.singleton_append,
    scanFrom_cons (m := ⟨ts,.text []⟩) rfl,scanFrom_append,scanFrom_pieces,Option.bind_some,
    scanFrom_cons (m := ⟨.string (s.map .char) :: ts,.between⟩) (by simp [step])]
  rfl

/-! Numbers. They go on until something else comes. -/

def Delimited (rest : List Char) : Prop := ∀ c ∈ rest.head?, c = ',' ∨ c = '\n'

private theorem readAfter_number (scan : Numeral) {n : Number} (finish : scan.finish = some n)
    (stops : ∀ c, c = ',' ∨ c = '\n' → scan.extend c = none)
    (reads : scanFrom ⟨ts,.between⟩ cs = some ⟨ts,.number scan⟩) (delimited : Delimited rest) :
    readAfter ts (cs ++ rest) = readAfter (.number n :: ts) rest := by
  rw [readAfter,scanFrom_append,reads,Option.bind_some]
  cases rest with
  | nil => simp [readAfter,scanFrom,Lexer.finish,finish]
  | cons c rest =>
    have stop : scan.extend c = none := stops c (delimited c rfl)
    have same : step ⟨ts,.number scan⟩ c = step ⟨.number n :: ts,.between⟩ c := by
      simp [step,stop,finish]
    rw [readAfter,scanFrom,scanFrom,List.foldlM_cons,List.foldlM_cons,same]

def numeral (n : Nat) : Numeral := if n = 0 then .zero false else .digits false n

private theorem finish_numeral (n : Nat) : (numeral n).finish = some (.natural n) := by
  by_cases zero : n = 0
  · subst zero
    rfl
  · simp [numeral,zero,Numeral.finish]

private theorem extend_numeral (n : Nat) {c : Char} (stop : c = ',' ∨ c = '\n') :
    (numeral n).extend c = none := by
  rw [numeral]
  rcases stop with rfl | rfl <;> split <;> rfl

private theorem digit?_digitChar : ∀ d < 10, digit? d.digitChar = some d := by decide

private theorem scanFrom_toDigits (n : Nat) :
    scanFrom ⟨ts,.between⟩ (Nat.toDigits 10 n) = some ⟨ts,.number (numeral n)⟩ := by
  -- The last digit is the last one read, so the induction is on the number without it.
  induction n using Nat.strongRecOn with
  | ind n ih =>
    by_cases small : n < 10
    · rw [Nat.toDigits_of_lt_base small]
      interval_cases n <;> rfl
    · have digit := digit?_digitChar (n % 10) (Nat.mod_lt n (by decide))
      have positive : n / 10 ≠ 0 := by omega
      have extend : (numeral (n / 10)).extend (n % 10).digitChar = some (numeral n) := by
        have value : n / 10 * 10 + n % 10 = n := by omega
        have nonzero : n ≠ 0 := by omega
        simp only [numeral,positive,↓reduceIte,Numeral.extend,digit,value,nonzero]
      rw [Nat.toDigits_of_base_le (by decide) (Nat.le_of_not_lt small),scanFrom_append,
        ih (n / 10) (by omega),Option.bind_some]
      simp [scanFrom,step,extend]

/-! Values. -/

def Reads (v : Value) : Prop :=
  ∀ (depth : Nat) (ts : List Token) (rest : List Char), Delimited rest →
    readAfter ts (v.printAt depth ++ rest) = readAfter (v.tokens.reverse ++ ts) rest

private theorem delimited_newLine (depth : Nat) (rest : List Char) :
    Delimited (Value.newLine depth ++ rest) := by
  intro c first
  cases first
  exact .inr rfl

private theorem delimited_printItems (items : List Value) (depth : Nat) (delimited : Delimited rest) :
    Delimited (Value.printItems depth false items ++ rest) := by
  cases items with
  | nil => exact delimited
  | cons v items =>
    intro c first
    cases first
    exact .inl rfl

private theorem delimited_printFields (fields : List (List Piece × Value)) (depth : Nat)
    (delimited : Delimited rest) : Delimited (Value.printFields depth false fields ++ rest) := by
  cases fields with
  | nil => exact delimited
  | cons f fields =>
    intro c first
    cases first
    exact .inl rfl

private theorem readAfter_printItems {items : List Value} (each : ∀ v ∈ items, Reads v) (depth : Nat)
    (first : Bool) (delimited : Delimited rest) :
    readAfter ts (Value.printItems depth first items ++ rest) =
      readAfter ((Value.itemTokens first items).reverse ++ ts) rest := by
  induction items generalizing first ts with
  | nil => rfl
  | cons v items ih =>
    have head := each v List.mem_cons_self
    have tail := fun w mem => each w (List.mem_cons_of_mem v mem)
    rw [Value.printItems,List.append_assoc,List.append_assoc,readAfter_separator,
      head depth _ _ (delimited_printItems items depth delimited),ih tail,Value.itemTokens]
    cases first <;> simp

private theorem readAfter_printFields {fields : List (List Piece × Value)}
    (keys : ∀ f ∈ fields, ∃ s : List Char, f.1 = s.map .char) (each : ∀ f ∈ fields, Reads f.2)
    (depth : Nat) (first : Bool) (delimited : Delimited rest) :
    readAfter ts (Value.printFields depth first fields ++ rest) =
      readAfter ((Value.fieldTokens first fields).reverse ++ ts) rest := by
  induction fields generalizing first ts with
  | nil => rfl
  | cons f fields ih =>
    obtain ⟨key,v⟩ := f
    obtain ⟨s,rfl⟩ := keys (key,v) List.mem_cons_self
    have head := each (_,v) List.mem_cons_self
    have colon (us : List Token) : scanFrom ⟨us,.between⟩ [':',' '] = some ⟨.colon :: us,.between⟩ := rfl
    rw [Value.printFields,List.append_assoc,List.append_assoc,List.append_assoc,List.append_assoc,
      readAfter_separator,readAfter_printString,readAfter_append (colon _),
      head depth _ _ (delimited_printFields fields depth delimited),
      ih (fun f mem => keys f (List.mem_cons_of_mem _ mem)) (fun f mem => each f (List.mem_cons_of_mem _ mem)),
      Value.fieldTokens]
    cases first <;> simp

theorem reads_of_isTextual {v : Value} (textual : v.IsTextual) : Reads v := by
  induction textual with
  | null =>
    intro depth ts rest _
    exact readAfter_append rfl rest
  | bool b =>
    intro depth ts rest _
    cases b <;> exact readAfter_append rfl rest
  | number n =>
    intro depth ts rest delimited
    cases n with
    | natural n =>
      exact readAfter_number (numeral n) (finish_numeral n) (fun c => extend_numeral n) (scanFrom_toDigits n)
        delimited
    | other =>
      -- Its value is lost, and a negative zero stands in for it.
      exact readAfter_number (.zero true) rfl (by rintro c (rfl | rfl) <;> rfl) rfl delimited
  | string s =>
    intro depth ts rest _
    exact readAfter_printString s rest
  | @array items each ih =>
    intro depth ts rest _
    cases items with
    | nil => exact readAfter_append rfl rest
    | cons v items =>
      have opening : scanFrom ⟨ts,.between⟩ ['['] = some ⟨.openArray :: ts,.between⟩ := rfl
      have closing (us : List Token) : scanFrom ⟨us,.between⟩ [']'] = some ⟨.closeArray :: us,.between⟩ := rfl
      simp only [Value.printAt,List.append_assoc]
      rw [readAfter_append opening,
        readAfter_printItems ih (depth + 1) true (delimited_newLine depth ([']'] ++ rest)),
        readAfter_append (scanFrom_newLine _ depth),readAfter_append (closing _),Value.tokens]
      simp
  | @object fields keys each ih =>
    intro depth ts rest _
    cases fields with
    | nil => exact readAfter_append rfl rest
    | cons f fields =>
      have opening : scanFrom ⟨ts,.between⟩ ['\x7b'] = some ⟨.openObject :: ts,.between⟩ := rfl
      have closing (us : List Token) :
          scanFrom ⟨us,.between⟩ ['\x7d'] = some ⟨.closeObject :: us,.between⟩ := rfl
      simp only [Value.printAt,List.append_assoc]
      rw [readAfter_append opening,
        readAfter_printFields keys ih (depth + 1) true (delimited_newLine depth (['\x7d'] ++ rest)),
        readAfter_append (scanFrom_newLine _ depth),readAfter_append (closing _),Value.tokens]
      simp

end Lexer

namespace Parser
variable {stack : List Frame}

def Parses (v : Value) : Prop :=
  ∀ stack : List Frame, v.tokens.foldlM step (.value stack) = some (complete v stack)

theorem foldlM_append {p q : Parser} {ts : List Token} (parse : ts.foldlM step p = some q)
    (rest : List Token) : (ts ++ rest).foldlM step p = rest.foldlM step q := by
  rw [List.foldlM_append,parse]
  rfl

private theorem foldlM_firstItem (v : Value) (stack : List Frame) :
    v.tokens.foldlM step (.firstItem stack) = v.tokens.foldlM step (.value (.items [] :: stack)) := by
  cases v <;> rfl

private theorem parses_items {items : List Value} (each : ∀ v ∈ items, Parses v) (before : List Value) :
    (Value.itemTokens false items ++ [Token.closeArray]).foldlM step (.afterItem before stack) =
      some (complete (.array (before.reverse ++ items)) stack) := by
  induction items generalizing before with
  | nil =>
    rw [List.append_nil]
    rfl
  | cons v items ih =>
    have head := each v List.mem_cons_self
    have tail := fun w mem => each w (List.mem_cons_of_mem v mem)
    have comma : [Token.comma].foldlM step (.afterItem before stack) = some (.value (.items before :: stack)) := rfl
    simp only [Value.itemTokens,List.append_assoc,Bool.false_eq_true,↓reduceIte]
    rw [foldlM_append comma,foldlM_append (head _),complete,ih tail,List.reverse_cons,
      List.append_assoc,List.singleton_append]

private theorem parses_fields {fields : List (List Piece × Value)} (each : ∀ f ∈ fields, Parses f.2)
    (before : List (List Piece × Value)) :
    (Value.fieldTokens false fields ++ [Token.closeObject]).foldlM step (.afterField before stack) =
      some (complete (.object (before.reverse ++ fields)) stack) := by
  induction fields generalizing before with
  | nil =>
    rw [List.append_nil]
    rfl
  | cons f fields ih =>
    obtain ⟨name,v⟩ := f
    have head := each (name,v) List.mem_cons_self
    have tail := fun f mem => each f (List.mem_cons_of_mem (name,v) mem)
    have next : ([Token.comma] ++ [Token.string name,Token.colon]).foldlM step (.afterField before stack) =
        some (.value (.fields before name :: stack)) := rfl
    rw [Value.fieldTokens,List.append_assoc,List.append_assoc,if_neg Bool.false_ne_true,
      foldlM_append next,foldlM_append (head _),complete,ih tail,List.reverse_cons,List.append_assoc,
      List.singleton_append]

theorem parses (v : Value) : Parses v := by
  intro stack
  match v with
  | .null | .bool _ | .number _ | .string _ | .array [] | .object [] => rfl
  | .array (v :: items) =>
    have head : Parses v := parses v
    have tail : ∀ w ∈ items, Parses w := fun w mem => parses w
    have opening : [Token.openArray].foldlM step (.value stack) = some (.firstItem stack) := rfl
    -- The first item stands where the array might end, the others stand behind commas.
    rw [Value.tokens,Value.itemTokens,if_pos rfl,List.nil_append,List.append_assoc,
      foldlM_append opening,List.append_assoc,List.foldlM_append,foldlM_firstItem,head]
    exact parses_items tail [v]
  | .object ((name,v) :: fields) =>
    have head : Parses v := parses v
    have tail : ∀ f ∈ fields, Parses f.2 := fun f mem => parses f.2
    have opening : ([Token.openObject] ++ [Token.string name,Token.colon]).foldlM step (.value stack) =
        some (.value (.fields [] name :: stack)) := rfl
    rw [Value.tokens,Value.fieldTokens,if_pos rfl,List.nil_append,List.append_assoc _ v.tokens,
      ← List.append_assoc [Token.openObject],List.append_assoc,foldlM_append opening,List.append_assoc,
      foldlM_append (head _)]
    exact parses_fields tail [(name,v)]
termination_by v
decreasing_by
  · simp; omega
  · have := List.sizeOf_lt_of_mem mem; simp; omega
  · simp; omega
  · have := List.sizeOf_lt_of_mem mem; cases f; simp at *; omega

end Parser

theorem Value.parse?_print {v : Value} (textual : v.IsTextual) : Value.parse? v.print = some v := by
  have text := Lexer.reads_of_isTextual textual 0 [] [] (fun _ none => nomatch none)
  rw [List.append_nil,List.append_nil] at text
  have tokens : tokens? v.print = some v.tokens := by
    have stop : Lexer.readAfter v.tokens.reverse [] = some v.tokens := by
      simp [Lexer.readAfter,Lexer.scanFrom,Lexer.finish]
    exact text.trans stop
  have parse : ofTokens? v.tokens = some v := by
    rw [ofTokens?,Parser.parses v []]
    rfl
  rw [Value.parse?,tokens,Option.bind_some,parse]

end Sm83.Json
