import Sm83.Text.Blank
import Sm83.Text.Numeral

/-!
Reading patterns: what is left to read, and the mode that the pattern has set.
-/
namespace Sm83.Text.Pattern

structure Mode where
  caseless : Bool := false
  multiLine : Bool := false
  dotAll : Bool := false
  crlf : Bool := false
  /-- Sets may hold characters beyond 0x7F. -/
  unicode : Bool := true
  spaced : Bool := false
deriving DecidableEq

namespace Mode

/-- Greed makes no difference to whether there is a match, so `U` switches nothing. -/
def switch (m : Mode) (on : Bool) : Char → Mode
  | 'i' => {m with caseless := on}
  | 'm' => {m with multiLine := on}
  | 's' => {m with dotAll := on}
  | 'R' => {m with crlf := on}
  | 'u' => {m with unicode := on}
  | 'x' => {m with spaced := on}
  | _ => m

/-- Flags: each letter at most once, and those behind a minus sign switch off. -/
def withFlags? (m : Mode) (flags : List Char) : Option Mode :=
  let on := flags.takeWhile (· != '-')
  let off := flags.drop on.length
  if flags.all "imsRuxU-".toList.contains && flags.Nodup && off != ['-'] then
    some (off.foldl (switch · false) (on.foldl (switch · true) m))
  else none

end Mode

structure Cursor where
  rest : List Char
  mode : Mode := {}
  names : List (List Char) := []

abbrev Reader := StateT Cursor Option

/-- What follows blanks and comments. A comment begins with `#` and ends with its line. -/
def dropSpace (inComment : Bool) : List Char → List Char
  | [] => []
  | c :: cs =>
    if inComment then dropSpace (c != '\n') cs
    else if isBlank c then dropSpace false cs
    else if c = '#' then dropSpace true cs
    else c :: cs

namespace Reader

def rest : Reader (List Char) := return (← get).rest

def mode : Reader Mode := return (← get).mode

def setRest (cs : List Char) : Reader Unit := modify fun s => {s with rest := cs}

def setMode (m : Mode) : Reader Unit := modify fun s => {s with mode := m}

def current : Reader Char := do (← rest).head?

def advance : Reader Unit := modify fun s => {s with rest := s.rest.drop 1}

def skipSpace : Reader Unit := modify fun s =>
  if s.mode.spaced then {s with rest := dropSpace false s.rest} else s

def advanceSpaced : Reader Unit := do advance; skipSpace

def require (b : Bool) : Reader Unit := if b then pure () else failure

def eat (word : String) : Reader Bool := do
  let cs ← rest
  if word.toList.isPrefixOf cs then setRest (cs.drop word.length); return true
  else return false

def collect (p : Char → Bool) (move : Reader Unit) : Nat → Reader (List Char)
  | 0 => return []
  | n + 1 => do
    match (← rest).head? with
    | some c => if p c then move; return c :: (← collect p move n) else return []
    | none => return []

def takeWhile (p : Char → Bool) (move : Reader Unit) : Reader (List Char) := do
  collect p move (← rest).length

end Reader

open Reader

def maxCount : Nat := 0xFFFFFFFF

def readCount : Reader Nat := do
  let _ ← takeWhile isBlank advance
  let digits ← takeWhile Char.isDigit advanceSpaced
  let _ ← takeWhile isBlank advanceSpaced
  require !digits.isEmpty
  let n ← digitsValue 10 0 digits
  require (n ≤ maxCount)
  return n

def readCounts : Reader (Nat × Option Nat) := do
  advanceSpaced
  let least ← readCount
  let most ← match ← current with
    | ',' => do
      advanceSpaced
      if (← current) = '\x7d' then pure none else some <$> readCount
    | _ => pure (some least)
  require ((← current) = '\x7d')
  require (most.all (least ≤ ·))
  advanceSpaced
  return (least,most)

end Sm83.Text.Pattern
