import Sm83.Gzip.Deflate

/-!
Compressed files: a header, the compressed data, and the check and size of what they stand for.
Only the first member of a file counts; what follows it is not looked at.
-/
namespace Sm83.Gzip

/-- Divides by the polynomial, one bit on. -/
def crcShift (c : UInt32) : UInt32 := if c &&& 1 = 1 then (c >>> 1) ^^^ 0xEDB88320 else c >>> 1

def crcByte (c : UInt32) (b : UInt8) : UInt32 := Nat.repeat crcShift 8 (c ^^^ b.toUInt32)

def crc32From (c : UInt32) (bytes : List UInt8) : UInt32 := bytes.foldl crcByte c

def crc32 (bytes : List UInt8) : UInt32 := ~~~ crc32From 0xFFFFFFFF bytes

structure Flags where
  headerCheck : Bool
  extra : Bool
  name : Bool
  comment : Bool

/-- The three highest flags have no meaning and must be clear. -/
def Flags.ofByte? (b : UInt8) : Option Flags :=
  if b &&& 0xE0 = 0 then
    some ⟨b.toNat.testBit 1,b.toNat.testBit 2,b.toNat.testBit 3,b.toNat.testBit 4⟩
  else none

def maxText : Nat := 65535

def skipText? (bytes : List UInt8) : Option (List UInt8) :=
  let (text,rest) := bytes.span (· != 0)
  if text.length ≤ maxText then rest.tail? else none

def skipExtra? : List UInt8 → Option (List UInt8)
  | lo :: hi :: rest =>
    let n := lo.toNat + 256 * hi.toNat
    if n ≤ rest.length then some (rest.drop n) else none
  | _ => none

/-- Drops the low half of the check of the `before` bytes. -/
def skipCheck? (before : List UInt8) : List UInt8 → Option (List UInt8)
  | lo :: hi :: rest =>
    if lo.toNat + 256 * hi.toNat = (crc32 before).toNat % 65536 then some rest else none
  | _ => none

private def applyIf (b : Bool) (f : List UInt8 → Option (List UInt8)) (bytes : List UInt8) :
    Option (List UInt8) := if b then f bytes else some bytes

/-- What follows the header: two marks, the method, the flags, six bytes of no concern, and what the
flags announce. -/
def skipHeader? (bytes : List UInt8) : Option (List UInt8) :=
  match bytes with
  | 0x1F :: 0x8B :: 8 :: flags :: _ :: _ :: _ :: _ :: _ :: _ :: rest => do
    let flags ← Flags.ofByte? flags
    let rest ← applyIf flags.extra skipExtra? rest
    let rest ← applyIf flags.name skipText? rest
    let rest ← applyIf flags.comment skipText? rest
    applyIf flags.headerCheck (skipCheck? (bytes.take (bytes.length - rest.length))) rest
  | _ => none

def decompress? (file : ByteArray) : Option ByteArray := do
  let (data,bits) ← inflate? (bitsOf (← skipHeader? file.toList))
  let (check,bits) ← readNumber? 32 (alignToByte bits)
  let (size,_) ← readNumber? 32 bits
  if check = (crc32 data.toList).toNat && size = data.size % 0x100000000 then some data else none

end Sm83.Gzip
