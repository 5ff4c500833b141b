import Sm83.Text.Pattern
import Sm83.Text.Pattern.Cursor

/-!
Patterns while they are read, with what decides whether they can be put to use: how deep they are
nested, how much room an automaton for them takes, and whether they ask for words in all scripts,
which are not known here.
-/
namespace Sm83.Text.Pattern

structure Piece where
  pattern : Pattern
  /-- Groups, sets, repetitions, sequences and alternatives around the innermost part. -/
  depth : Nat := 0
  /-- Room for an automaton, in bytes. -/
  room : Nat := 0
  foreignWords : Bool := false
  /-- Nothing can be repeated that only switches the mode. -/
  repeatable : Bool := true

namespace Piece

def maxDepth : Nat := 250

def maxRoom : Nat := 0xA00000

/-- Room for what stands around every pattern: the search for a beginning, the marks of the match,
and its end. -/
def frameRoom : Nat := 216

/-- Each state takes this much room, and each way out of a branching or a set some more. -/
def stateRoom : Nat := 32

def wayRoom : Nat := 4

def stepRoom : Nat := 8

/-- States for the bytes of a run, by the lengths of the encodings of its characters. -/
def runStates (first last : Nat) : Nat :=
  (if first < 0x80 then 1 else 0) + (if first < 0x800 && 0x80 ≤ last then 2 else 0) +
    (if first < 0x10000 && 0x800 ≤ last then 12 else 0) + (if 0x10000 ≤ last then 12 else 0)

def setRoom (s : CharSet) : Nat :=
  match s.runs with
  | [(a,b)] =>
    if a = b then (Char.ofNat a).utf8Size * stateRoom
    else if b < 0x80 then 2 * stateRoom
    else (2 + runStates a b) * stateRoom
  | runs =>
    if runs.all fun (_,b) => b < 0x80 then 2 * stateRoom + runs.length * stepRoom
    else runs.foldl (fun n (a,b) => n + runStates a b) 2 * stateRoom

def empty : Piece := {pattern := .empty,room := stateRoom}

def flags : Piece := {pattern := .empty,repeatable := false}

def ofSet (s : CharSet) (depth : Nat) : Piece := {pattern := .char s,depth,room := setRoom s}

def look (l : Look) (foreignWords : Bool) : Piece :=
  {pattern := .look l,room := stateRoom,foreignWords}

def group (p : Piece) (captures : Bool) : Piece where
  pattern := p.pattern
  depth := p.depth + 1
  room := if captures then p.room + 2 * stateRoom else p.room
  foreignWords := p.foreignWords

private def deepest (ps : List Piece) : Nat := ps.foldl (fun n p => max n p.depth) 0

private def totalRoom (ps : List Piece) : Nat := ps.foldl (fun n p => n + p.room) 0

def sequence : List Piece → Piece
  | [] => empty
  | [p] => {p with repeatable := true}
  | p :: ps =>
    {pattern := ps.foldl (fun q r => .sequence q r.pattern) p.pattern
     depth := deepest (p :: ps) + 1
     room := totalRoom (p :: ps)
     foreignWords := (p :: ps).any foreignWords}

def alternatives : List Piece → Piece
  | [] => empty
  | [p] => p
  | p :: ps =>
    {pattern := ps.foldl (fun q r => .either q r.pattern) p.pattern
     depth := deepest (p :: ps) + 1
     room := totalRoom (p :: ps) + (p :: ps).length * wayRoom + 2 * stateRoom
     foreignWords := (p :: ps).any foreignWords}

def repeatedRoom (once least : Nat) (most : Option Nat) (emptyOnce : Bool) : Nat :=
  match most with
  | some most =>
    if least = most then most * once
    else most * once + (most - least) * (stateRoom + 2 * wayRoom) + stateRoom
  | none =>
    if least = 0 then once + if emptyOnce then 3 * stateRoom + 4 * wayRoom else stateRoom + 2 * wayRoom
    else least * once + stateRoom + 2 * wayRoom

/-- What matches without taking anything is tried at most once, and what may occur no time at all
leaves nothing behind. -/
def repeated (p : Piece) (least : Nat) (most : Option Nat) : Piece :=
  if most = some 0 then {empty with depth := p.depth + 1}
  else
    let room :=
      if p.pattern.takesNothing then
        repeatedRoom p.room (min least 1) (some ((most.map (min · 1)).getD 1)) true
      else repeatedRoom p.room least most p.pattern.acceptsEmpty
    {pattern := .repeated p.pattern least most,depth := p.depth + 1,room
     foreignWords := p.foreignWords}

def isUsable (p : Piece) : Bool := p.depth ≤ maxDepth && p.room + frameRoom ≤ maxRoom && !p.foreignWords

end Piece
end Sm83.Text.Pattern
