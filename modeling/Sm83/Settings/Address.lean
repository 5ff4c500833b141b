import Sm83.Text.Blank
import Sm83.Text.Numeral
import Sm83.Text.Quoted

/-!
Addresses as a user writes them: hexadecimal after `0x`, `0X` or `$`, otherwise decimal.
-/
namespace Sm83
open Text

structure AddressError where
  /-- The text without the blanks around it. -/
  text : List Char
  reason : NumeralError
deriving DecidableEq

def AddressError.message (e : AddressError) : String :=
  s!"invalid address {quoted e.text}: {e.reason.message}"

def splitBase : List Char → Nat × List Char
  | '0' :: 'x' :: cs | '0' :: 'X' :: cs | '$' :: cs => (16,cs)
  | cs => (10,cs)

def parseAddress (text : String) : Except AddressError UInt16 :=
  let cs := trim text.toList
  let (base,digits) := splitBase cs
  match readNatural base 0x10000 digits with
  | .ok n => .ok (UInt16.ofNat n)
  | .error reason => .error ⟨cs,reason⟩

end Sm83
