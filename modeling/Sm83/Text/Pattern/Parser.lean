import Sm83.Text.Letter
import Sm83.Text.Pattern.CharClass
import Sm83.Text.Pattern.Piece

/-!
Patterns from their texts. A text that is not well formed, or whose pattern cannot be put to use,
stands for no pattern.
-/
namespace Sm83.Text.Pattern
open Reader

def isNameChar (c : Char) : Bool := c = '_' || c = '.' || c = '[' || c = ']' || isLetterOrDigit c

/-- The name of a group, which no other group has. -/
def readName : Reader Unit := do
  let name ← takeWhile (· ≠ '>') advance
  require (← eat ">")
  require (name.all isNameChar && name.head?.any fun c => c = '_' || isLetter c)
  require !(← get).names.contains name
  modify fun s => {s with names := name :: s.names}

inductive GroupStart
  | capture
  | plain (mode : Mode)
  | flags (mode : Mode)

def readGroupStart : Reader GroupStart := do
  advance
  skipSpace
  if (← eat "?P<") then readName; return .capture
  let cs ← rest
  if cs.take 2 = ['?','<'] then
    require ((cs.drop 2).head? ≠ some '=' && (cs.drop 2).head? ≠ some '!')
    setRest (cs.drop 2)
    readName
    return .capture
  if ← eat "?" then
    let flags ← takeWhile (fun c => c ≠ ':' && c ≠ ')') advance
    let mode ← (← mode).withFlags? flags
    let last ← current
    advance
    if last = ')' then
      require !flags.isEmpty
      return .flags mode
    else return .plain mode
  return .capture

/-- In ASCII both cases of a letter, where case makes no difference; no other cases are known. -/
def charPiece (c : Char) (byte : Bool) : Reader Piece := do
  let m ← mode
  require (m.unicode || !byte || c.toNat < 0x80)
  require !(m.caseless && m.unicode)
  let s := CharSet.single c
  return .ofSet (if m.caseless then s.bothCases else s) 0

def lookPiece (l : Look) : Reader Piece := do
  return .look l (l.isWord && (← mode).unicode)

def dotPiece : Reader Piece := do
  let m ← mode
  require m.unicode
  let ends := if m.dotAll then CharSet.empty
    else if m.crlf then .ofRuns [(0x0A,0x0A),(0x0D,0x0D)]
    else .single '\n'
  return .ofSet ends.complement 0

def readPrimitive (c : Char) : Reader Piece := do
  advance
  let m ← mode
  match c with
  | '\\' =>
    match ← readEscape with
    | .char c byte => charPiece c byte
    | .set s => return .ofSet s 0
    | .look l => lookPiece l
  | '.' => dotPiece
  | '^' => lookPiece (if m.multiLine then .lineStart m.crlf else .textStart)
  | '$' => lookPiece (if m.multiLine then .lineEnd m.crlf else .textEnd)
  | c => charPiece c false

/-- The last piece, repeated. A question mark behind the repetition makes it lazy, which makes no
difference here. -/
def repeatLast (pieces : List Piece) (counts : Reader (Nat × Option Nat)) : Reader (List Piece) := do
  match pieces with
  | [] => failure
  | p :: others =>
    require p.repeatable
    let (least,most) ← counts
    let _ ← eat "?"
    return p.repeated least most :: others

/-- Reads up to the end of a group or of the text. `branches` holds the alternatives before, and
`pieces` what has been read of the present one, the latest first. -/
def readAlternatives : Nat → List Piece → List Piece → Reader Piece
  | 0,_,_ => failure
  | fuel + 1,branches,pieces => do
    skipSpace
    let sign (least : Nat) (most : Option Nat) : Reader Piece := do
      let pieces ← repeatLast pieces do advance; return (least,most)
      readAlternatives fuel branches pieces
    let branch := Piece.sequence pieces.reverse
    match (← rest).head? with
    | none | some ')' => return .alternatives (branch :: branches).reverse
    | some '|' =>
      advance
      readAlternatives fuel (branch :: branches) []
    | some '(' =>
      let outer ← mode
      let inside (m : Mode) (captures : Bool) : Reader Piece := do
        setMode m
        let p ← readAlternatives fuel [] []
        setMode outer
        require (← eat ")")
        readAlternatives fuel branches (p.group captures :: pieces)
      match ← readGroupStart with
      | .capture => inside outer true
      | .plain m => inside m false
      | .flags m =>
        setMode m
        readAlternatives fuel branches (.flags :: pieces)
    | some '[' =>
      let s ← readSet
      readAlternatives fuel branches (.ofSet s.set s.depth :: pieces)
    | some '?' => sign 0 (some 1)
    | some '*' => sign 0 none
    | some '+' => sign 1 none
    | some '\x7b' =>
      let pieces ← repeatLast pieces readCounts
      readAlternatives fuel branches pieces
    | some c => readAlternatives fuel branches ((← readPrimitive c) :: pieces)

def readPattern : Reader Pattern := do
  let p ← readAlternatives ((← rest).length + 1) [] []
  require ((← rest).isEmpty && p.isUsable)
  return p.pattern

def parse? (text : List Char) : Option Pattern := (readPattern.run {rest := text}).map Prod.fst

end Sm83.Text.Pattern
