import Sm83.Text.CharSet

/-!
Patterns for texts, and whether one matches somewhere in a text. Places in a text are numbered from
0, the place before the first character. All places that matches can reach are followed at once, so
no order of trying plays a part.
-/
namespace Sm83.Text

/-- A demand on the characters beside a place. -/
inductive Look
  | textStart | textEnd
  /-- `crlf` takes a carriage return, a line feed and both together for one line end. -/
  | lineStart (crlf : Bool) | lineEnd (crlf : Bool)
  | wordEdge | noWordEdge
  | wordStart | wordEnd
  /-- These two look at one side only. -/
  | wordStartHalf | wordEndHalf
deriving DecidableEq

inductive Pattern
  | empty
  | char (s : CharSet)
  | look (l : Look)
  | sequence (p q : Pattern)
  | either (p q : Pattern)
  /-- No `most` stands for any number. -/
  | repeated (p : Pattern) (least : Nat) (most : Option Nat)
deriving DecidableEq

namespace Look

def isWord : Look → Bool
  | textStart | textEnd | lineStart _ | lineEnd _ => false
  | _ => true

def isWordChar (c : Char) : Bool := c.isAlphanum || c = '_'

/-- At the ends of the text there is no character before or after the place. -/
def holds (l : Look) (before after : Option Char) : Bool :=
  let left := before.any isWordChar
  let right := after.any isWordChar
  match l with
  | textStart => before.isNone
  | textEnd => after.isNone
  | lineStart false => before.isNone || before = some '\n'
  | lineEnd false => after.isNone || after = some '\n'
  | lineStart true => before.isNone || before = some '\n' || before = some '\r' && after ≠ some '\n'
  | lineEnd true => after.isNone || after = some '\r' || after = some '\n' && before ≠ some '\r'
  | wordEdge => left != right
  | noWordEdge => left == right
  | wordStart => !left && right
  | wordEnd => left && !right
  | wordStartHalf => !left
  | wordEndHalf => !right

end Look

namespace Pattern

def unite : List Nat → List Nat → List Nat
  | [],bs => bs
  | as,[] => as
  | a :: as,b :: bs =>
    if a < b then a :: unite as (b :: bs)
    else if b < a then b :: unite (a :: as) bs
    else a :: unite as bs

def iterate (f : List Nat → List Nat) : Nat → List Nat → List Nat
  | 0,places => places
  | n + 1,places =>
    let next := f places
    if next = places then places else iterate f n next

/-- Goes on up to `n` times, keeping all places on the way. -/
def reach (f : List Nat → List Nat) (n : Nat) (places : List Nat) : List Nat :=
  iterate (fun places => unite places (f places)) n places

def before (text : Array Char) (place : Nat) : Option Char :=
  if place = 0 then none else text[place - 1]?

/-- Where the matches end that begin at one of the places. A match that goes on any number of times
finds something new at most as often as there are places. -/
def ends (text : Array Char) : Pattern → List Nat → List Nat
  | empty,places => places
  | char s,places => (places.filter fun i => text[i]?.any s.contains).map (· + 1)
  | look l,places => places.filter fun i => l.holds (before text i) text[i]?
  | sequence p q,places => ends text q (ends text p places)
  | either p q,places => unite (ends text p places) (ends text q places)
  | repeated p least most,places =>
    let further := match most with
      | some most => most - least
      | none => text.size + 1
    reach (ends text p) further (iterate (ends text p) least places)

def occursIn (p : Pattern) (text : String) : Bool :=
  let text := text.toList.toArray
  !(ends text p (List.range (text.size + 1))).isEmpty

def acceptsEmpty : Pattern → Bool
  | empty | look _ => true
  | char _ => false
  | sequence p q => p.acceptsEmpty && q.acceptsEmpty
  | either p q => p.acceptsEmpty || q.acceptsEmpty
  | repeated p least _ => least = 0 || p.acceptsEmpty

def takesNothing : Pattern → Bool
  | empty | look _ => true
  | char _ => false
  | sequence p q | either p q => p.takesNothing && q.takesNothing
  | repeated p _ most => most = some 0 || p.takesNothing

end Pattern
end Sm83.Text
