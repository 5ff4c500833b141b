/-!
Bytes read as UTF-8 whatever they are. A malformed sequence is cut where its first wrong byte
stands, so each part that could still have become a character counts as one error.
-/
namespace Sm83.Text.Utf8

/-- What a first byte announces: the number of bytes that follow, the range of the next one, and
the bits that the first byte itself gives. -/
structure Lead where
  count : Nat
  low : UInt8
  high : UInt8
  bits : Nat

def lead (b : UInt8) : Option Lead :=
  if b < 0x80 then some ⟨0,0x80,0xBF,b.toNat⟩
  else if b < 0xC2 then none
  else if b < 0xE0 then some ⟨1,0x80,0xBF,b.toNat % 32⟩
  else if b = 0xE0 then some ⟨2,0xA0,0xBF,0⟩
  else if b = 0xED then some ⟨2,0x80,0x9F,13⟩
  else if b < 0xF0 then some ⟨2,0x80,0xBF,b.toNat % 16⟩
  else if b = 0xF0 then some ⟨3,0x90,0xBF,0⟩
  else if b < 0xF4 then some ⟨3,0x80,0xBF,b.toNat % 8⟩
  else if b = 0xF4 then some ⟨3,0x80,0x8F,4⟩
  else none

/-- Reads the bytes that follow, up to the first that does not belong. -/
def follow (low high : UInt8) (bits : Nat) : Nat → List UInt8 → Option Char × List UInt8
  | 0,rest => (some (Char.ofNat bits),rest)
  | _ + 1,[] => (none,[])
  | n + 1,b :: rest =>
    if low ≤ b && b ≤ high then follow 0x80 0xBF (bits * 64 + b.toNat % 64) n rest
    else (none,b :: rest)

private theorem length_follow_le (low high : UInt8) (bits n : Nat) (bytes : List UInt8) :
    (follow low high bits n bytes).2.length ≤ bytes.length := by
  fun_induction follow low high bits n bytes <;> simp_all
  omega

/-- The characters, with `none` for each malformed part. -/
def chars : List UInt8 → List (Option Char)
  | [] => []
  | b :: rest =>
    match lead b with
    | none => none :: chars rest
    | some l =>
      let next := follow l.low l.high l.bits l.count rest
      next.1 :: chars next.2
termination_by bytes => bytes.length
decreasing_by
  · simp
  · have := length_follow_le l.low l.high l.bits l.count rest
    simp only [List.length_cons]
    omega

def lossy (bytes : List UInt8) : String := .ofList ((chars bytes).map fun c => c.getD '\uFFFD')
end Sm83.Text.Utf8
