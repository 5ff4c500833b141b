/-!
Bytes and words: a 16-bit word as its high and low byte, and the single bits of a byte. Main
statements: `word_high_low` and its partners say that the split loses nothing, in either direction.
-/
namespace Sm83

def word (hi lo : UInt8) : UInt16 := hi.toUInt16 * 256 + lo.toUInt16

def highByte (w : UInt16) : UInt8 := (w / 256).toUInt8

def lowByte (w : UInt16) : UInt8 := w.toUInt8

def signExtend (b : UInt8) : UInt16 := if b < 0x80 then b.toUInt16 else 0xFF00 + b.toUInt16

def bitMask (i : Fin 8) : UInt8 := 1 <<< UInt8.ofNat i.val

def twoBits (n : Nat) : Fin 4 := ⟨n % 4,Nat.mod_lt _ (by decide)⟩

def threeBits (n : Nat) : Fin 8 := ⟨n % 8,Nat.mod_lt _ (by decide)⟩

/-- What is said of every byte can be tried on all of them. -/
instance decidableForallByte {p : UInt8 → Prop} [DecidablePred p] : Decidable (∀ b, p b) :=
  decidable_of_iff (∀ i : Fin 256, p (UInt8.ofFin i)) ⟨fun all b => all b.toFin,fun all _ => all _⟩

theorem toNat_word (hi lo : UInt8) : (word hi lo).toNat = hi.toNat * 256 + lo.toNat := by
  have := hi.toNat_lt; have := lo.toNat_lt
  simp only [word,UInt16.toNat_add,UInt16.toNat_mul,UInt8.toNat_toUInt16,UInt16.reduceToNat]
  omega

theorem toNat_highByte (w : UInt16) : (highByte w).toNat = w.toNat / 256 := by
  have := w.toNat_lt
  simp only [highByte,UInt16.toNat_toUInt8,UInt16.toNat_div,UInt16.reduceToNat]
  omega

theorem toNat_lowByte (w : UInt16) : (lowByte w).toNat = w.toNat % 256 := by simp [lowByte]

@[simp] theorem word_high_low (w : UInt16) : word (highByte w) (lowByte w) = w := by
  apply UInt16.toNat_inj.mp
  rw [toNat_word,toNat_highByte,toNat_lowByte]
  omega

@[simp] theorem highByte_word (hi lo : UInt8) : highByte (word hi lo) = hi := by
  have := lo.toNat_lt
  apply UInt8.toNat_inj.mp
  rw [toNat_highByte,toNat_word]
  omega

@[simp] theorem lowByte_word (hi lo : UInt8) : lowByte (word hi lo) = lo := by
  have := lo.toNat_lt
  apply UInt8.toNat_inj.mp
  rw [toNat_lowByte,toNat_word]
  omega

theorem toNat_signExtend (b : UInt8) :
    (signExtend b).toNat = if b.toNat < 128 then b.toNat else 0xFF00 + b.toNat := by
  have := b.toNat_lt
  simp only [signExtend,UInt8.lt_iff_toNat_lt,UInt8.reduceToNat]
  split
  · simp
  · simp [UInt16.toNat_add]
    omega

theorem UInt16.add_two (a : UInt16) : a + 2 = a + 1 + 1 := by
  grind

theorem UInt16.add_three (a : UInt16) : a + 3 = a + 1 + 1 + 1 := by
  grind

theorem UInt16.sub_one_sub_one (a : UInt16) : a - 1 - 1 = a - 2 := by
  grind

/-- The two addresses below `sp`, on which a word lies once it is pushed. -/
theorem stack_apart (sp : UInt16) : sp - 1 ≠ sp - 2 ∧ sp - 2 + 1 = sp - 1 ∧ sp - 2 + 2 = sp := by
  grind

end Sm83
