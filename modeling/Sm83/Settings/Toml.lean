import Sm83.Text.Numeral

/-!
Configuration files in TOML, as far as settings need them: lines that give a key a string, an
integer or a boolean. Tables, arrays, dotted keys, fractions and dates, which no setting takes, are
refused like malformed text.
-/
namespace Sm83.Toml
open Text

inductive Scalar
  | text (s : List Char)
  | integer (n : Int)
  | boolean (b : Bool)

/-- What was read, and the rest of the text. -/
abbrev Reader (α : Type) := List Char → Option (α × List Char)

def isSpace (c : Char) : Bool := c = ' ' || c = '\t'

def skipSpaces (cs : List Char) : List Char := cs.dropWhile isSpace

/-- A character that strings and comments may hold as it is. -/
def isPlain (c : Char) : Bool := c = '\t' || 0x20 ≤ c.toNat && c.toNat ≠ 0x7F

def newline? : List Char → Option (List Char)
  | '\n' :: cs | '\r' :: '\n' :: cs => some cs
  | _ => none

def scalar? (digits : List Char) : Option Char :=
  (digitsValue 16 0 digits).bind fun n => if n.isValidChar then some (Char.ofNat n) else none

def letterEscape? : Char → Option Char
  | 'b' => some '\x08'
  | 't' => some '\t'
  | 'n' => some '\n'
  | 'f' => some '\x0c'
  | 'r' => some '\r'
  | '"' => some '"'
  | '\\' => some '\\'
  | _ => none

private def cons (c : Char) : Option (List Char × List Char) → Option (List Char × List Char) :=
  Option.map fun (cs,rest) => (c :: cs,rest)

private def consOf (c : Option Char) (tail : Option (List Char × List Char)) :
    Option (List Char × List Char) := c.bind fun c => cons c tail

def basicString : Reader (List Char)
  | '"' :: cs => some ([],cs)
  | '\\' :: 'u' :: a :: b :: c :: d :: cs => consOf (scalar? [a,b,c,d]) (basicString cs)
  | '\\' :: 'U' :: a :: b :: c :: d :: e :: f :: g :: h :: cs =>
    consOf (scalar? [a,b,c,d,e,f,g,h]) (basicString cs)
  | '\\' :: c :: cs => consOf (letterEscape? c) (basicString cs)
  | c :: cs => if isPlain c then cons c (basicString cs) else none
  | [] => none

def literalString : Reader (List Char)
  | '\'' :: cs => some ([],cs)
  | c :: cs => if isPlain c then cons c (literalString cs) else none
  | [] => none

/-- A string of several lines ends with three quotes, up to two quotes before them being its own. -/
private def closing (quote : Char) : Reader (List Char)
  | a :: b :: c :: d :: e :: cs =>
    if [a,b,c,d,e] = [quote,quote,quote,quote,quote] then some ([quote,quote],cs)
    else if [a,b,c,d] = [quote,quote,quote,quote] then some ([quote],e :: cs)
    else if [a,b,c] = [quote,quote,quote] then some ([],d :: e :: cs)
    else none
  | [a,b,c,d] =>
    if [a,b,c,d] = [quote,quote,quote,quote] then some ([quote],[])
    else if [a,b,c] = [quote,quote,quote] then some ([],[d])
    else none
  | [a,b,c] => if [a,b,c] = [quote,quote,quote] then some ([],[]) else none
  | _ => none

/-- A backslash before nothing but blanks and the end of its line joins the lines. -/
private def joinsLines (cs : List Char) : Bool := (newline? (skipSpaces cs)).isSome

/-- After the opening quotes of a string of several lines. `joining` holds from a backslash at the
end of a line up to the next character that is neither a blank nor a line end. -/
def basicLines (joining : Bool) : Reader (List Char)
  | '\r' :: '\n' :: cs => if joining then basicLines true cs else cons '\n' (basicLines false cs)
  | '\n' :: cs => if joining then basicLines true cs else cons '\n' (basicLines false cs)
  | '"' :: cs => match closing '"' ('"' :: cs) with
    | some r => some r
    | none => cons '"' (basicLines false cs)
  | '\\' :: 'u' :: a :: b :: c :: d :: cs => consOf (scalar? [a,b,c,d]) (basicLines false cs)
  | '\\' :: 'U' :: a :: b :: c :: d :: e :: f :: g :: h :: cs =>
    consOf (scalar? [a,b,c,d,e,f,g,h]) (basicLines false cs)
  | '\\' :: c :: cs =>
    if joinsLines (c :: cs) then basicLines true (c :: cs)
    else consOf (letterEscape? c) (basicLines false cs)
  | c :: cs =>
    if joining && isSpace c then basicLines true cs
    else if isPlain c then cons c (basicLines false cs)
    else none
  | [] => none

def literalLines : Reader (List Char)
  | '\r' :: '\n' :: cs => cons '\n' (literalLines cs)
  | '\n' :: cs => cons '\n' (literalLines cs)
  | '\'' :: cs => match closing '\'' ('\'' :: cs) with
    | some r => some r
    | none => cons '\'' (literalLines cs)
  | c :: cs => if isPlain c then cons c (literalLines cs) else none
  | [] => none

/-- A line end right after the opening quotes does not count. -/
private def trimFirstLine (cs : List Char) : List Char := (newline? cs).getD cs

def isBareKeyChar (c : Char) : Bool := c.isAlphanum || c = '_' || c = '-'

def key : Reader (List Char)
  | '"' :: cs => basicString cs
  | '\'' :: cs => literalString cs
  | cs =>
    let name := cs.takeWhile isBareKeyChar
    if name.isEmpty then none else some (name,cs.dropWhile isBareKeyChar)

/-- Digits of a base, with single underscores between them. -/
private def separatedDigits (base : Nat) : List Char → Option (List Char)
  | [] => none
  | [c] => if (digit? base c).isSome then some [c] else none
  | c :: '_' :: d :: cs =>
    if (digit? base c).isSome then (separatedDigits base (d :: cs)).map (c :: ·) else none
  | c :: cs => if (digit? base c).isSome then (separatedDigits base cs).map (c :: ·) else none

/-- Decimal digits without a superfluous zero in front. -/
private def decimal (cs : List Char) : Option Nat := do
  let digits ← separatedDigits 10 cs
  if digits.length > 1 && digits.head? = some '0' then none
  else digitsValue 10 0 digits

private def inBase (base : Nat) (cs : List Char) : Option Int := do
  let digits ← separatedDigits base cs
  (digitsValue base 0 digits).map Int.ofNat

/-- Integers reach from -2^63 to 2^63 - 1. Only decimal ones have a sign. -/
def integer? (cs : List Char) : Option Int := do
  let n ← match cs with
    | '0' :: 'x' :: cs => inBase 16 cs
    | '0' :: 'o' :: cs => inBase 8 cs
    | '0' :: 'b' :: cs => inBase 2 cs
    | '+' :: cs => (decimal cs).map Int.ofNat
    | '-' :: cs => (decimal cs).map fun n => -Int.ofNat n
    | cs => (decimal cs).map Int.ofNat
  if -0x8000000000000000 ≤ n && n < 0x8000000000000000 then some n else none

/-- A value that is no string reaches up to a blank, a comment or the end of its line. -/
private def isWordChar (c : Char) : Bool := !(isSpace c || c = '\n' || c = '\r' || c = '#')

def scalar : Reader Scalar
  | '"' :: '"' :: '"' :: cs => (basicLines false (trimFirstLine cs)).map fun (s,cs) => (.text s,cs)
  | '\'' :: '\'' :: '\'' :: cs => (literalLines (trimFirstLine cs)).map fun (s,cs) => (.text s,cs)
  | '"' :: cs => (basicString cs).map fun (s,cs) => (.text s,cs)
  | '\'' :: cs => (literalString cs).map fun (s,cs) => (.text s,cs)
  | cs =>
    let word := cs.takeWhile isWordChar
    let rest := cs.dropWhile isWordChar
    if word = "true".toList then some (.boolean true,rest)
    else if word = "false".toList then some (.boolean false,rest)
    else (integer? word).map fun n => (.integer n,rest)

def lineEnd (cs : List Char) : Option (List Char) :=
  let cs := skipSpaces cs
  let cs := if cs.head? = some '#' then cs.dropWhile isPlain else cs
  if cs.isEmpty then some [] else newline? cs

def entry : Reader (List Char × Scalar) := fun cs => do
  let (name,cs) ← key cs
  match skipSpaces cs with
  | '=' :: cs =>
    let (value,cs) ← scalar (skipSpaces cs)
    return ((name,value),← lineEnd cs)
  | _ => none

def line : Reader (Option (List Char × Scalar)) := fun cs =>
  match lineEnd cs with
  | some rest => some (none,rest)
  | none => (entry (skipSpaces cs)).map fun (e,rest) => (some e,rest)

/-- The keys and values of all lines. Every line takes at least one character. -/
def lines (cs : List Char) : Option (List (List Char × Scalar)) :=
  if cs.isEmpty then some []
  else match line cs with
    | none => none
    | some (e,rest) =>
      if rest.length < cs.length then (lines rest).map (e.toList ++ ·) else none
termination_by cs.length

/-- The keys and values of a document, each key once. A byte order mark in front is skipped. -/
def document (cs : List Char) : Option (List (List Char × Scalar)) := do
  let entries ← lines (if cs.head? = some '\uFEFF' then cs.tail else cs)
  if (entries.map Prod.fst).Nodup then some entries else none

end Sm83.Toml
