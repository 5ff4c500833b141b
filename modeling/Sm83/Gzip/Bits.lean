/-!
A sequence of bytes as a sequence of bits, the lowest bit of each byte first, and numbers read from
it, lowest bit first too.
-/
namespace Sm83.Gzip

abbrev Bits := List Bool

def byteBits (b : UInt8) : Bits := (List.range 8).map b.toNat.testBit

def bitsOf (bytes : List UInt8) : Bits := bytes.flatMap byteBits

def readNumber? : Nat → Bits → Option (Nat × Bits)
  | 0,bits => some (0,bits)
  | _ + 1,[] => none
  | n + 1,b :: bits => (readNumber? n bits).map fun (v,rest) => (b.toNat + 2 * v,rest)

/-- The bits from the next byte on, if `bits` are the rest of whole bytes. -/
def alignToByte (bits : Bits) : Bits := bits.drop (bits.length % 8)

theorem length_bitsOf (bytes : List UInt8) : (bitsOf bytes).length = 8 * bytes.length := by
  induction bytes with
  | nil => rfl
  | cons b bytes ih =>
    have : (byteBits b).length = 8 := by simp [byteBits]
    simp only [bitsOf,List.flatMap_cons,List.length_append,List.length_cons] at ih ⊢
    omega

theorem length_of_readNumber? {n v : Nat} {bits rest : Bits} (h : readNumber? n bits = some (v,rest)) :
    rest.length + n = bits.length := by
  induction n generalizing bits v with
  | zero => simp only [readNumber?,Option.some.injEq,Prod.mk.injEq] at h; simp [h.2]
  | succ n ih =>
    match bits,h with
    | b :: bits,h =>
      simp only [readNumber?,Option.map_eq_some_iff,Prod.mk.injEq,Prod.exists] at h
      obtain ⟨w,r,e,-,rfl⟩ := h
      have := ih e
      simp only [List.length_cons]
      omega

theorem length_alignToByte_le (bits : Bits) : (alignToByte bits).length ≤ bits.length := by
  simp [alignToByte]

end Sm83.Gzip
