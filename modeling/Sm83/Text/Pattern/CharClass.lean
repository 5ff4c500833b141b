import Sm83.Text.Pattern.Escape

/-!
Sets of characters in brackets: single characters, ranges, named sets, nested brackets, and
operators between them.
-/
namespace Sm83.Text.Pattern
open Reader

inductive SetOperator
  | intersection | difference | symmetricDifference

def SetOperator.apply (s t : CharSet) : SetOperator → CharSet
  | intersection => s.inter t
  | difference => s.diff t
  | symmetricDifference => s.symmDiff t

/-- A set, and how deep the brackets and operators in it are nested. -/
structure SetPart where
  set : CharSet
  depth : Nat := 0

structure Members where
  set : CharSet := .empty
  number : Nat := 0
  deepest : Nat := 0

namespace Members

def add (u : Members) (p : SetPart) : Members :=
  ⟨u.set.union p.set,u.number + 1,max u.deepest p.depth⟩

def part (u : Members) : SetPart := ⟨u.set,if 2 ≤ u.number then u.deepest + 1 else u.deepest⟩

end Members

/-- Both cases of ASCII letters where case makes no difference. Beyond ASCII no cases are known, so
no set gets as far as this with both flags set, unless it is empty or full. -/
def withCases (s : CharSet) : Reader CharSet := do
  let m ← mode
  return if m.caseless && !m.unicode then s.bothCases else s

/-- Whatever is left out of a set in ASCII is half a character beyond ASCII. -/
def withNegation (negated : Bool) (s : CharSet) : Reader CharSet := do
  if negated then
    require (← mode).unicode
    return s.complement
  else return s

def member (c : Char) : Reader Unit := do
  let m ← mode
  require (if m.unicode then !m.caseless else c.toNat < 0x80)

def peekAfter : Reader (Option Char) := do
  let cs := (← rest).drop 1
  if !(← mode).spaced then return cs.head?
  let blankless := cs.dropWhile isBlank
  match blankless with
  | '#' :: inComment => return ((inComment.dropWhile isBlank).head?).or cs.head?
  | c :: _ => return some c
  | [] => return cs.head?

def readMember : Reader Escape := do
  let c ← current
  advance
  if c = '\\' then readEscape else return .char c false

def readRange : Reader CharSet := do
  let first ← readMember
  skipSpace
  let next ← current
  let after ← peekAfter
  if next ≠ '-' || after = some ']' || after = some '-' then
    match first with
    | .char c _ => member c; return .single c
    | .set s => return s
    | .look _ => failure
  else
    advanceSpaced
    match first,← readMember with
    | .char a _,.char b _ =>
      member a
      member b
      require (a.toNat ≤ b.toNat)
      return ⟨[(a.toNat,b.toNat)]⟩
    | _,_ => failure

def namedSet? : List Char → Option (Bool × CharSet × List Char)
  | '[' :: ':' :: cs =>
    let negated := cs.head? = some '^'
    let cs := if negated then cs.drop 1 else cs
    let name := cs.takeWhile (· != ':')
    match cs.drop name.length with
    | ':' :: ']' :: rest => (CharSet.named? name).map fun s => (negated,s,rest)
    | _ => none
  | _ => none

def readNamedSet (negated : Bool) (s : CharSet) : Reader CharSet := do
  let m ← mode
  require !(m.unicode && m.caseless)
  withNegation negated (← withCases s)

/-- From an opening bracket up to the first member that cannot be mistaken for something else. -/
def openSet : Reader (Bool × Members) := do
  advanceSpaced
  let negated := (← current) = '^'
  if negated then advanceSpaced
  let minuses ← takeWhile (· = '-') advanceSpaced
  if !minuses.isEmpty then member '-'
  let members := minuses.foldl (fun u c => u.add ⟨.single c,0⟩) {}
  if minuses.isEmpty && (← current) = ']' then
    member ']'
    advanceSpaced
    return (negated,members.add ⟨.single ']',0⟩)
  else return (negated,members)

def operand (pending : Option (SetOperator × SetPart)) (u : Members) : Reader SetPart := do
  match pending with
  | none => return u.part
  | some (op,left) =>
    let right := u.part
    return ⟨op.apply (← withCases left.set) (← withCases right.set),max left.depth right.depth + 1⟩

/-- Reads members and operators up to the closing bracket. Operators take effect from left to right. -/
def readMembers : Nat → Bool → Option (SetOperator × SetPart) → Members → Reader SetPart
  | 0,_,_,_ => failure
  | fuel + 1,negated,pending,u => do
    skipSpace
    let cs ← rest
    let operator (op : SetOperator) : Reader SetPart := do
      setRest (cs.drop 2)
      readMembers fuel negated (some (op,← operand pending u)) {}
    match cs with
    | '[' :: _ =>
      match namedSet? cs with
      | some (inverse,s,rest) =>
        setRest rest
        readMembers fuel negated pending (u.add ⟨← readNamedSet inverse s,0⟩)
      | none =>
        let (inverse,v) ← openSet
        let p ← readMembers fuel inverse none v
        readMembers fuel negated pending (u.add ⟨p.set,p.depth + 1⟩)
    | ']' :: _ =>
      advance
      let p ← operand pending u
      return ⟨← withNegation negated (← withCases p.set),p.depth⟩
    | '&' :: '&' :: _ => operator .intersection
    | '-' :: '-' :: _ => operator .difference
    | '~' :: '~' :: _ => operator .symmetricDifference
    | _ => readMembers fuel negated pending (u.add ⟨← readRange,0⟩)

def readSet : Reader SetPart := do
  let (negated,u) ← openSet
  let p ← readMembers ((← rest).length + 1) negated none u
  return ⟨p.set,p.depth + 1⟩

end Sm83.Text.Pattern
