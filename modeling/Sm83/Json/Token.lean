/-!
The tokens of JSON texts. The lexer goes through the characters one by one and keeps what it is in
the middle of, so a text may be cut anywhere: `scanFrom_append`.
-/
namespace Sm83.Json

/-- A string may hold, beside characters, the halves of characters that its escapes spell. -/
inductive Piece
  | char (c : Char)
  | half (n : Nat)
deriving DecidableEq

/-- Of numbers with a sign, a fraction or an exponent no value is kept. -/
inductive Number
  | natural (n : Nat)
  | other
deriving DecidableEq

inductive Token
  | openArray | closeArray | openObject | closeObject | comma | colon
  | null
  | bool (b : Bool)
  | number (n : Number)
  | string (s : List Piece)
deriving DecidableEq

def isBlank (c : Char) : Bool := c = ' ' || c = '\t' || c = '\n' || c = '\r'

inductive Numeral
  | minus
  | zero (negative : Bool)
  | digits (negative : Bool) (n : Nat)
  | point | fraction
  | exponent | exponentSign | exponentDigits

def digit? (c : Char) : Option Nat :=
  if '0' ≤ c && c ≤ '9' then some (c.toNat - '0'.toNat) else none

namespace Numeral

private def start (negative : Bool) (d : Nat) : Numeral :=
  if d = 0 then zero negative else digits negative d

private def pointOrExponent (c : Char) : Option Numeral :=
  if c = '.' then some point else if c = 'e' || c = 'E' then some exponent else none

def extend (n : Numeral) (c : Char) : Option Numeral :=
  match n,digit? c with
  | minus,some d => some (start true d)
  | digits negative n,some d => some (digits negative (n * 10 + d))
  | point,some _ | fraction,some _ => some fraction
  | exponent,some _ | exponentSign,some _ | exponentDigits,some _ => some exponentDigits
  | zero _,none | digits _ _,none => pointOrExponent c
  | fraction,none => if c = 'e' || c = 'E' then some exponent else none
  | exponent,none => if c = '+' || c = '-' then some exponentSign else none
  | _,_ => none

def finish : Numeral → Option Number
  | zero false => some (.natural 0)
  | digits false n => some (.natural n)
  | zero true | digits true _ | fraction | exponentDigits => some .other
  | minus | point | exponent | exponentSign => none

def first? (c : Char) : Option Numeral :=
  if c = '-' then some minus else (digit? c).map (start false)

end Numeral

/-- What the lexer is in the middle of. Pieces are kept in reverse order. -/
inductive Scan
  | between
  | word (rest : List Char) (t : Token)
  | number (n : Numeral)
  | text (pieces : List Piece)
  | escape (pieces : List Piece)
  | code (pieces : List Piece) (missing n : Nat)

structure Lexer where
  tokens : List Token := []
  scan : Scan := .between

def hexDigit? (c : Char) : Option Nat :=
  if '0' ≤ c && c ≤ '9' then some (c.toNat - '0'.toNat)
  else if 'a' ≤ c && c ≤ 'f' then some (c.toNat - 'a'.toNat + 10)
  else if 'A' ≤ c && c ≤ 'F' then some (c.toNat - 'A'.toNat + 10)
  else none

/-- What a unit of UTF-16 stands for on its own. -/
def Piece.ofUnit (n : Nat) : Piece := if n.isValidChar then .char (Char.ofNat n) else .half n

def letterEscape? : Char → Option Char
  | '"' => some '"'
  | '\\' => some '\\'
  | '/' => some '/'
  | 'b' => some '\x08'
  | 'f' => some '\x0c'
  | 'n' => some '\n'
  | 'r' => some '\r'
  | 't' => some '\t'
  | _ => none

namespace Lexer

def begin (tokens : List Token) (c : Char) : Option Lexer :=
  if isBlank c then some ⟨tokens,.between⟩
  else match c with
    | '[' => some ⟨.openArray :: tokens,.between⟩
    | ']' => some ⟨.closeArray :: tokens,.between⟩
    | '\x7b' => some ⟨.openObject :: tokens,.between⟩
    | '\x7d' => some ⟨.closeObject :: tokens,.between⟩
    | ',' => some ⟨.comma :: tokens,.between⟩
    | ':' => some ⟨.colon :: tokens,.between⟩
    | '"' => some ⟨tokens,.text []⟩
    | 'n' => some ⟨tokens,.word ['u','l','l'] .null⟩
    | 't' => some ⟨tokens,.word ['r','u','e'] (.bool true)⟩
    | 'f' => some ⟨tokens,.word ['a','l','s','e'] (.bool false)⟩
    | c => (Numeral.first? c).map fun n => ⟨tokens,.number n⟩

def step (l : Lexer) (c : Char) : Option Lexer :=
  match l.scan with
  | .between => begin l.tokens c
  | .word [x] t => if c = x then some ⟨t :: l.tokens,.between⟩ else none
  | .word (x :: rest) t => if c = x then some ⟨l.tokens,.word rest t⟩ else none
  | .word [] _ => none
  | .number n => match n.extend c with
    | some n => some ⟨l.tokens,.number n⟩
    | none => n.finish.bind fun n => begin (.number n :: l.tokens) c
  | .text pieces =>
    if c = '"' then some ⟨.string pieces.reverse :: l.tokens,.between⟩
    else if c = '\\' then some ⟨l.tokens,.escape pieces⟩
    else if c.toNat < 0x20 then none
    else some ⟨l.tokens,.text (.char c :: pieces)⟩
  | .escape pieces =>
    if c = 'u' then some ⟨l.tokens,.code pieces 4 0⟩
    else (letterEscape? c).map fun c => ⟨l.tokens,.text (.char c :: pieces)⟩
  | .code pieces missing n => (hexDigit? c).bind fun d => match missing with
    | 0 => none
    | 1 => some ⟨l.tokens,.text (.ofUnit (n * 16 + d) :: pieces)⟩
    | missing + 1 => some ⟨l.tokens,.code pieces missing (n * 16 + d)⟩

/-- All tokens in order, if the text may end here. -/
def finish (l : Lexer) : Option (List Token) :=
  match l.scan with
  | .between => some l.tokens.reverse
  | .number n => n.finish.map fun n => (Token.number n :: l.tokens).reverse
  | _ => none

def scanFrom (l : Lexer) (cs : List Char) : Option Lexer := cs.foldlM step l

theorem scanFrom_append (l : Lexer) (first second : List Char) :
    l.scanFrom (first ++ second) = (l.scanFrom first).bind fun l => l.scanFrom second := by
  simp only [scanFrom,List.foldlM_append]
  rfl

end Lexer

def tokens? (cs : List Char) : Option (List Token) := (({} : Lexer).scanFrom cs).bind Lexer.finish

/-- The characters of a string, if each half has its other half. -/
def text? : List Piece → Option (List Char)
  | [] => some []
  | .char c :: rest => (text? rest).map (c :: ·)
  | .half high :: .half low :: rest =>
    if high < 0xDC00 && 0xDC00 ≤ low then
      (text? rest).map (Char.ofNat (0x10000 + (high - 0xD800) * 0x400 + (low - 0xDC00)) :: ·)
    else none
  | .half _ :: _ => none

end Sm83.Json
