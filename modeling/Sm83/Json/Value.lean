import Sm83.Json.Token
import Sm83.Text.Numeral

/-!
JSON values. The parser goes through the tokens one by one and keeps the containers that are still
open, so neither depth nor length bounds what it reads. Fields keep their order.
-/
namespace Sm83.Json

inductive Value
  | null
  | bool (b : Bool)
  | number (n : Number)
  | string (s : List Piece)
  | array (items : List Value)
  | object (fields : List (List Piece × Value))

/-- A container that is still open. What it holds is kept in reverse order. -/
inductive Frame
  | items (done : List Value)
  | fields (done : List (List Piece × Value)) (key : List Piece)

inductive Parser
  | value (stack : List Frame)
  | firstItem (stack : List Frame)
  | firstKey (stack : List Frame)
  | key (done : List (List Piece × Value)) (stack : List Frame)
  | colon (done : List (List Piece × Value)) (key : List Piece) (stack : List Frame)
  | afterItem (done : List Value) (stack : List Frame)
  | afterField (done : List (List Piece × Value)) (stack : List Frame)
  | done (v : Value)

namespace Parser

def complete (v : Value) : List Frame → Parser
  | [] => done v
  | .items before :: stack => afterItem (v :: before) stack
  | .fields before name :: stack => afterField ((name,v) :: before) stack

def start (stack : List Frame) : Token → Option Parser
  | .openArray => some (firstItem stack)
  | .openObject => some (firstKey stack)
  | .null => some (complete .null stack)
  | .bool b => some (complete (.bool b) stack)
  | .number n => some (complete (.number n) stack)
  | .string s => some (complete (.string s) stack)
  | _ => none

def step : Parser → Token → Option Parser
  | value stack,t => start stack t
  | firstItem stack,.closeArray => some (complete (.array []) stack)
  | firstItem stack,t => start (.items [] :: stack) t
  | firstKey stack,.closeObject => some (complete (.object []) stack)
  | firstKey stack,.string s => some (colon [] s stack)
  | key before stack,.string s => some (colon before s stack)
  | colon before s stack,.colon => some (value (.fields before s :: stack))
  | afterItem items stack,.comma => some (value (.items items :: stack))
  | afterItem items stack,.closeArray => some (complete (.array items.reverse) stack)
  | afterField fields stack,.comma => some (key fields stack)
  | afterField fields stack,.closeObject => some (complete (.object fields.reverse) stack)
  | _,_ => none

def finish : Parser → Option Value
  | done v => some v
  | _ => none

end Parser

namespace Value

def ofTokens? (ts : List Token) : Option Value := (ts.foldlM Parser.step (.value [])).bind Parser.finish

def parse? (cs : List Char) : Option Value := (tokens? cs).bind ofTokens?

/-! Printing. -/

def natural (n : Nat) : Value := .number (.natural n)

def pieces (s : String) : List Piece := s.toList.map .char

def text (s : String) : Value := .string (pieces s)

/-- Quotes, backslashes and control characters are escaped, the common ones by a letter. -/
def escapeChar (c : Char) : List Char :=
  if c = '"' then ['\\','"']
  else if c = '\\' then ['\\','\\']
  else if c = '\x08' then ['\\','b']
  else if c = '\x0c' then ['\\','f']
  else if c = '\n' then ['\\','n']
  else if c = '\r' then ['\\','r']
  else if c = '\t' then ['\\','t']
  else if c.toNat < 0x20 then ['\\','u'] ++ (Text.lowerHex 4 c.toNat).toList
  else [c]

def escapePiece : Piece → List Char
  | .char c => escapeChar c
  | .half n => ['\\','u'] ++ (Text.lowerHex 4 n).toList

def printString (s : List Piece) : List Char := ['"'] ++ s.flatMap escapePiece ++ ['"']

def newLine (depth : Nat) : List Char := '\n' :: List.replicate (2 * depth) ' '

def separator (first : Bool) (depth : Nat) : List Char :=
  (if first then [] else [',']) ++ newLine depth

mutual

/-- One item or field a line, two blanks for each level. Empty containers stay on their line. -/
def printAt (depth : Nat) : Value → List Char
  | .null => "null".toList
  | .bool b => (toString b).toList
  | .number (.natural n) => Nat.toDigits 10 n
  | .number .other => "-0".toList
  | .string s => printString s
  | .array [] => ['[',']']
  | .array items => ['['] ++ printItems (depth + 1) true items ++ newLine depth ++ [']']
  | .object [] => ['\x7b','\x7d']
  | .object fields => ['\x7b'] ++ printFields (depth + 1) true fields ++ newLine depth ++ ['\x7d']

def printItems (depth : Nat) (first : Bool) : List Value → List Char
  | [] => []
  | v :: vs => separator first depth ++ printAt depth v ++ printItems depth false vs

def printFields (depth : Nat) (first : Bool) : List (List Piece × Value) → List Char
  | [] => []
  | (key,v) :: fields =>
    separator first depth ++ printString key ++ [':',' '] ++ printAt depth v ++
      printFields depth false fields

end

def print (v : Value) : List Char := printAt 0 v

end Value
end Sm83.Json
