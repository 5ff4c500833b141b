import Mathlib.Tactic.Ring
import Sm83.Gzip

/-!
Files compressed without a gain: the bytes as they are, in blocks that hold as many of them as a
block can. They decompress to what they were made from: `decompress?_store`.
-/
namespace Sm83.Gzip

def lowBytes : Nat → Nat → List UInt8
  | 0,_ => []
  | count + 1,n => UInt8.ofNat n :: lowBytes count (n / 256)

/-- No time, no name, the fastest method on a system that is not told. -/
def plainHeader : List UInt8 := [0x1F,0x8B,8,0,0,0,0,0,4,0xFF]

def maxStored : Nat := 0xFFFF

def storedBlock (last : Bool) (bytes : List UInt8) : List UInt8 :=
  [last.toUInt8] ++ lowBytes 2 bytes.length ++ lowBytes 2 (0xFFFF - bytes.length) ++ bytes

def storedBlocks (bytes : List UInt8) : List UInt8 :=
  if bytes.length ≤ maxStored then storedBlock true bytes
  else storedBlock false (bytes.take maxStored) ++ storedBlocks (bytes.drop maxStored)
termination_by bytes.length
decreasing_by
  rw [List.length_drop,maxStored] at *
  omega

def store (data : ByteArray) : ByteArray :=
  (plainHeader ++ storedBlocks data.toList ++ lowBytes 4 (crc32 data.toList).toNat ++
    lowBytes 4 data.size).toByteArray

private theorem skipHeader?_plainHeader (rest : List UInt8) :
    skipHeader? (plainHeader ++ rest) = some rest := by
  rfl

private theorem toList_eq_data (bytes : ByteArray) : bytes.toList = bytes.data.toList := by
  have loop (i : Nat) (read : List UInt8) :
      ByteArray.toList.loop bytes i read = read.reverse ++ bytes.data.toList.drop i := by
    fun_induction ByteArray.toList.loop bytes i read with
    | case1 i read below ih =>
      have inside : i < bytes.data.toList.length := below
      rw [ih,List.drop_eq_getElem_cons inside]
      simp [ByteArray.get!,below]
    | case2 i read below =>
      have outside : bytes.data.toList.length ≤ i := Nat.le_of_not_lt below
      rw [List.drop_eq_nil_of_le outside,List.append_nil]
  exact (loop 0 []).trans (by simp)

/-! Numbers. -/

def valueOf : Bits → Nat
  | [] => 0
  | b :: bits => b.toNat + 2 * valueOf bits

private theorem readNumber?_append (first : Bits) (n : Nat) (bits : Bits) :
    readNumber? (first.length + n) (first ++ bits) =
      (readNumber? n bits).map fun r => (valueOf first + 2 ^ first.length * r.1,r.2) := by
  induction first with
  | nil => simp [valueOf]
  | cons b first ih =>
    rw [List.length_cons,Nat.add_right_comm,List.cons_append,readNumber?,ih,Option.map_map]
    congr 1
    funext r
    simp only [Function.comp_apply,valueOf,Prod.mk.injEq,and_true]
    ring

private theorem valueOf_byteBits (b : UInt8) : valueOf (byteBits b) = b.toNat := by
  have all : ∀ n < 256, valueOf ((List.range 8).map n.testBit) = n := by decide +kernel
  exact all b.toNat b.toNat_lt

private theorem readNumber?_byte (b : UInt8) (n : Nat) (bits : Bits) :
    readNumber? (8 + n) (byteBits b ++ bits) =
      (readNumber? n bits).map fun r => (b.toNat + 256 * r.1,r.2) := by
  have read := readNumber?_append (byteBits b) n bits
  have length : (byteBits b).length = 8 := by simp [byteBits]
  have weight : 2 ^ 8 = 256 := rfl
  rwa [valueOf_byteBits,length,weight] at read

theorem readNumber?_lowBytes (count n : Nat) (bits : Bits) :
    readNumber? (8 * count) (bitsOf (lowBytes count n) ++ bits) = some (n % 256 ^ count,bits) := by
  induction count generalizing n with
  | zero => simp [lowBytes,bitsOf,readNumber?,Nat.mod_one]
  | succ count ih =>
    have value : n % 256 + 256 * (n / 256 % 256 ^ count) = n % 256 ^ (count + 1) := by
      rw [pow_succ',Nat.mod_mul]
    rw [lowBytes,bitsOf,List.flatMap_cons,← bitsOf,List.append_assoc,Nat.mul_succ,Nat.add_comm,
      readNumber?_byte,ih,Option.map_some,UInt8.toNat_ofNat']
    exact congrArg (fun v => some (v,bits)) value

/-! Blocks. -/

private theorem bitsOf_append (first second : List UInt8) :
    bitsOf (first ++ second) = bitsOf first ++ bitsOf second :=
  List.flatMap_append

/-- What is left of a byte is dropped, and only that. -/
private theorem alignToByte_append {left : Bits} (few : left.length < 8) (bytes : List UInt8) :
    alignToByte (left ++ bitsOf bytes) = bitsOf bytes := by
  have length : (left ++ bitsOf bytes).length % 8 = left.length := by
    rw [List.length_append,length_bitsOf]
    omega
  rw [alignToByte,length,List.drop_left]

private theorem copyBytes?_bitsOf (bytes : List UInt8) (bits : Bits) (out : ByteArray) :
    copyBytes? bytes.length (bitsOf bytes ++ bits) out = some (out ++ bytes.toByteArray,bits) := by
  induction bytes generalizing out with
  | nil => simp [copyBytes?,bitsOf]
  | cons b bytes ih =>
    have byte : readNumber? 8 (byteBits b ++ (bitsOf bytes ++ bits)) = some (b.toNat,bitsOf bytes ++ bits) :=
      readNumber?_byte b 0 _
    have pushed : out.push b ++ bytes.toByteArray = out ++ (b :: bytes).toByteArray := by
      apply ByteArray.ext
      simp
    rw [List.length_cons,bitsOf,List.flatMap_cons,← bitsOf,List.append_assoc,copyBytes?,byte]
    simp only [UInt8.ofNat_toNat]
    rw [ih,pushed]

private theorem inflateStored?_bitsOf {left : Bits} (few : left.length < 8) {bytes : List UInt8}
    (fits : bytes.length ≤ maxStored) (rest : List UInt8) (out : ByteArray) :
    inflateStored? (left ++ bitsOf (lowBytes 2 bytes.length ++ lowBytes 2 (0xFFFF - bytes.length) ++
      bytes ++ rest)) out = some (out ++ bytes.toByteArray,bitsOf rest) := by
  rw [maxStored] at fits
  have length : bytes.length % 256 ^ 2 = bytes.length := Nat.mod_eq_of_lt (by omega)
  have complement : (0xFFFF - bytes.length) % 256 ^ 2 = 0xFFFF - bytes.length :=
    Nat.mod_eq_of_lt (by omega)
  have whole : bytes.length + (0xFFFF - bytes.length) = 0xFFFF := by omega
  rw [inflateStored?,alignToByte_append few,List.append_assoc,List.append_assoc,bitsOf_append,
    bitsOf_append,bitsOf_append]
  simp only [Option.bind_eq_bind]
  rw [show 16 = 8 * 2 from rfl,readNumber?_lowBytes,Option.bind_some,length]
  dsimp only
  rw [readNumber?_lowBytes,Option.bind_some,complement]
  simp only [whole,↓reduceIte]
  exact copyBytes?_bitsOf bytes (bitsOf rest) out

private theorem inflateFrom?_block {bits after rest : Bits} {out more : ByteArray} {header : Nat}
    (begins : readNumber? 3 bits = some (header,after))
    (block : inflateBlock? (header / 2) after out = some (more,rest)) :
    inflateFrom? bits out = if header % 2 = 1 then some (more,rest) else inflateFrom? rest more := by
  rw [inflateFrom?]
  split
  · rename_i none
    cases begins.symm.trans none
  · rename_i read
    cases begins.symm.trans read
    split
    · rename_i none
      cases block.symm.trans none
    · rename_i again
      cases block.symm.trans again
      rfl

private theorem inflateFrom?_storedBlock (last : Bool) {bytes : List UInt8}
    (fits : bytes.length ≤ maxStored) (rest : List UInt8) (out : ByteArray) :
    inflateFrom? (bitsOf (storedBlock last bytes ++ rest)) out =
      if last then some (out ++ bytes.toByteArray,bitsOf rest)
      else inflateFrom? (bitsOf rest) (out ++ bytes.toByteArray) := by
  have few : (List.replicate 5 false).length < 8 := by decide
  have block := inflateStored?_bitsOf few fits rest out
  -- Three bits of the first byte count; the reader drops the other five when it aligns.
  have header (tail : List UInt8) : readNumber? 3 (bitsOf ([last.toUInt8] ++ tail)) =
      some (last.toNat,List.replicate 5 false ++ bitsOf tail) := by
    cases last <;> rfl
  rw [storedBlock,List.append_assoc,List.append_assoc,List.append_assoc]
  rw [List.append_assoc,List.append_assoc] at block
  cases last with
  | true => exact inflateFrom?_block (header _) block
  | false => exact inflateFrom?_block (header _) block

theorem inflateFrom?_storedBlocks (bytes rest : List UInt8) (out : ByteArray) :
    inflateFrom? (bitsOf (storedBlocks bytes ++ rest)) out = some (out ++ bytes.toByteArray,bitsOf rest) := by
  fun_induction storedBlocks bytes generalizing out with
  | case1 bytes fits => exact inflateFrom?_storedBlock true fits rest out
  | case2 bytes exceeds ih =>
    have fits : (bytes.take maxStored).length ≤ maxStored := List.length_take_le ..
    have parts : out ++ (bytes.take maxStored).toByteArray ++ (bytes.drop maxStored).toByteArray =
        out ++ bytes.toByteArray := by
      apply ByteArray.ext
      simp
    rw [List.append_assoc,inflateFrom?_storedBlock false fits,if_neg Bool.false_ne_true,ih,parts]

theorem decompress?_store (data : ByteArray) : decompress? (store data) = some data := by
  have file : (store data).toList = plainHeader ++ (storedBlocks data.toList ++
      (lowBytes 4 (crc32 data.toList).toNat ++ lowBytes 4 data.size)) := by
    rw [toList_eq_data,store,List.toList_data_toByteArray]
    simp only [List.append_assoc]
  have whole : ByteArray.empty ++ data.toList.toByteArray = data := by
    rw [toList_eq_data]
    apply ByteArray.ext
    simp
  have check : (crc32 data.toList).toNat % 256 ^ 4 = (crc32 data.toList).toNat :=
    Nat.mod_eq_of_lt (crc32 data.toList).toNat_lt
  have size := readNumber?_lowBytes 4 data.size []
  rw [List.append_nil] at size
  rw [decompress?,file,skipHeader?_plainHeader]
  simp only [Option.bind_eq_bind,Option.bind_some]
  rw [inflate?,inflateFrom?_storedBlocks,Option.bind_some,whole]
  dsimp only
  rw [← List.nil_append (bitsOf _),alignToByte_append (by decide),bitsOf_append]
  rw [show 32 = 8 * 4 from rfl,readNumber?_lowBytes,Option.bind_some,check]
  dsimp only
  rw [size,Option.bind_some]
  simp

end Sm83.Gzip
