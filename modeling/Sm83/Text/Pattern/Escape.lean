import Sm83.Text.Pattern.Cursor
import Sm83.Text.Pattern

/-!
What a backslash introduces in a pattern: characters that would have a meaning, characters by
number, sets, and demands on a place.
-/
namespace Sm83.Text.Pattern
open Reader

inductive Escape
  /-- `byte` if it was written as a byte of two digits. -/
  | char (c : Char) (byte : Bool)
  | set (s : CharSet)
  | look (l : Look)

def isHexDigit (c : Char) : Bool := (digit? 16 c).isSome

def charOf (digits : List Char) : Reader Char := do
  let n ← digitsValue 16 0 digits
  require n.isValidChar
  return Char.ofNat n

def readHexDigits : Nat → Reader (List Char)
  | 0 => return []
  | n + 1 => do
    let c ← current
    require (isHexDigit c)
    advanceSpaced
    return c :: (← readHexDigits n)

/-- A character by number, from the letter on that tells the number of digits. Braces hold any
number of digits. -/
def readNumbered (letter : Char) : Reader Escape := do
  advanceSpaced
  if (← current) = '\x7b' then
    advanceSpaced
    let digits ← takeWhile isHexDigit advanceSpaced
    require ((← current) = '\x7d' && !digits.isEmpty)
    advanceSpaced
    return .char (← charOf digits) false
  else
    let width := if letter = 'x' then 2 else if letter = 'u' then 4 else 8
    return .char (← charOf (← readHexDigits width)) (letter = 'x')

/-- Names of demands on words stand in braces. Braces that do not begin with a name are left for a
repetition. -/
def readWordEdge : Reader Look := do
  let isNameChar (c : Char) : Bool := c.isAlpha || c = '-'
  let before ← get
  if ← eat "\x7b" then
    skipSpace
    if isNameChar (← current) then
      let name ← takeWhile isNameChar advanceSpaced
      require (← eat "\x7d")
      match String.ofList name with
      | "start" => return .wordStart
      | "end" => return .wordEnd
      | "start-half" => return .wordStartHalf
      | "end-half" => return .wordEndHalf
      | _ => failure
    else
      set before
      return .wordEdge
  else return .wordEdge

/-- Characters that stand for themselves behind a backslash: all of ASCII but letters, digits and
the two angle brackets. -/
def isEscapable (c : Char) : Bool := c.toNat < 0x80 && !c.isAlphanum && c ≠ '<' && c ≠ '>'

/-- The sets of digits, white space and word characters. Of other scripts' ones nothing is known
here, so all but the ones of ASCII are refused. -/
def readShorthand (name : String) : Reader Escape := do
  require !(← mode).unicode
  return .set (← CharSet.named? name.toList)

def readEscape : Reader Escape := do
  let c ← current
  if "xuU".toList.contains c then readNumbered c
  else
    advance
    match c with
    | 'd' => readShorthand "digit"
    | 's' => readShorthand "space"
    | 'w' => readShorthand "word"
    | 'a' => return .char '\x07' false
    | 'f' => return .char '\x0c' false
    | 't' => return .char '\t' false
    | 'n' => return .char '\n' false
    | 'r' => return .char '\r' false
    | 'v' => return .char '\x0b' false
    | 'A' => return .look .textStart
    | 'z' => return .look .textEnd
    | 'b' => return .look (← readWordEdge)
    | 'B' => return .look .noWordEdge
    | '<' => return .look .wordStart
    | '>' => return .look .wordEnd
    | _ =>
      require (isEscapable c)
      return .char c false

end Sm83.Text.Pattern
