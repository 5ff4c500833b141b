import Sm83.Gzip.PrefixCode

/-!
Data compressed by earlier occurrences and prefix codes, as a sequence of blocks. The output grows
at its end; a copy may reach into what it is about to write.
-/
namespace Sm83.Gzip

/-- The codes of a block: for bytes, lengths and the end, and for distances. -/
structure BlockCodes where
  main : PrefixCode
  distance : PrefixCode

inductive Item
  | byte (b : UInt8)
  | copy (length distance : Nat)
  | finish

/-- The least value of each length code and the number of bits that add to it. -/
def lengthTable : Array (Nat × Nat) :=
  #[(3,0),(4,0),(5,0),(6,0),(7,0),(8,0),(9,0),(10,0),(11,1),(13,1),(15,1),(17,1),(19,2),(23,2),
    (27,2),(31,2),(35,3),(43,3),(51,3),(59,3),(67,4),(83,4),(99,4),(115,4),(131,5),(163,5),(195,5),
    (227,5),(258,0)]

/-- The same for distances. -/
def distanceTable : Array (Nat × Nat) :=
  #[(1,0),(2,0),(3,0),(4,0),(5,1),(7,1),(9,2),(13,2),(17,3),(25,3),(33,4),(49,4),(65,5),(97,5),
    (129,6),(193,6),(257,7),(385,7),(513,8),(769,8),(1025,9),(1537,9),(2049,10),(3073,10),(4097,11),
    (6145,11),(8193,12),(12289,12),(16385,13),(24577,13)]

def readAmount? (table : Array (Nat × Nat)) (index : Nat) (bits : Bits) : Option (Nat × Bits) :=
  table[index]?.bind fun (base,extra) => (readNumber? extra bits).map fun (v,rest) => (base + v,rest)

private theorem length_of_readAmount? {table : Array (Nat × Nat)} {index v : Nat} {bits rest : Bits}
    (h : readAmount? table index bits = some (v,rest)) : rest.length ≤ bits.length := by
  simp only [readAmount?,Option.bind_eq_some_iff,Option.map_eq_some_iff,Prod.mk.injEq,Prod.exists] at h
  obtain ⟨base,extra,-,w,r,e,-,rfl⟩ := h
  have := length_of_readNumber? e
  omega

def readItem? (codes : BlockCodes) (bits : Bits) : Option (Item × Bits) := do
  let (s,bits) ← codes.main.read? bits
  if s < 256 then return (.byte (UInt8.ofNat s),bits)
  if s = 256 then return (.finish,bits)
  let (length,bits) ← readAmount? lengthTable (s - 257) bits
  let (s,bits) ← codes.distance.read? bits
  let (distance,bits) ← readAmount? distanceTable s bits
  return (.copy length distance,bits)

private theorem length_of_readItem? {codes : BlockCodes} {item : Item} {bits rest : Bits}
    (h : readItem? codes bits = some (item,rest)) : rest.length < bits.length := by
  simp only [readItem?,Option.bind_eq_bind,Option.bind_eq_some_iff,Prod.exists] at h
  obtain ⟨s,afterMain,readMain,h⟩ := h
  have := PrefixCode.length_of_read? readMain
  split at h
  · cases h; assumption
  split at h
  · cases h; assumption
  simp only [Option.bind_eq_some_iff,Prod.exists] at h
  obtain ⟨length,afterLength,readLength,t,afterCode,readCode,distance,afterAll,readDistance,h⟩ := h
  have := length_of_readAmount? readLength
  have := PrefixCode.length_of_read? readCode
  have := length_of_readAmount? readDistance
  cases h
  omega

/-- The byte `distance` places before the end. Before the first byte there are zeros. -/
def byteBack (distance : Nat) (out : ByteArray) : UInt8 :=
  if distance ≤ out.size then out[out.size - distance]?.getD 0 else 0

def copyBack (distance : Nat) : Nat → ByteArray → ByteArray
  | 0,out => out
  | n + 1,out => copyBack distance n (out.push (byteBack distance out))

def inflateItems? (codes : BlockCodes) (bits : Bits) (out : ByteArray) : Option (ByteArray × Bits) :=
  match _ : readItem? codes bits with
  | none => none
  | some (.finish,rest) => some (out,rest)
  | some (.byte b,rest) => inflateItems? codes rest (out.push b)
  | some (.copy length distance,rest) => inflateItems? codes rest (copyBack distance length out)
termination_by bits.length
decreasing_by all_goals exact length_of_readItem? ‹_›

private theorem length_of_inflateItems? {codes : BlockCodes} {bits rest : Bits} {out result : ByteArray}
    (h : inflateItems? codes bits out = some (result,rest)) : rest.length ≤ bits.length := by
  fun_induction inflateItems? codes bits out with
  | case1 => simp at h
  | case2 bits out r e => cases h; exact Nat.le_of_lt (length_of_readItem? e)
  | case3 bits out b r e ih => exact Nat.le_trans (ih h) (Nat.le_of_lt (length_of_readItem? e))
  | case4 bits out length distance r e ih =>
    exact Nat.le_trans (ih h) (Nat.le_of_lt (length_of_readItem? e))

def fixedCodes? : Option BlockCodes := do
  let main ← PrefixCode.ofLengths?
    (List.replicate 144 8 ++ List.replicate 112 9 ++ List.replicate 24 7 ++ List.replicate 8 8)
  let distance ← PrefixCode.ofLengths? (List.replicate 32 5)
  return ⟨main,distance⟩

/-- A length of code words, and how many symbols in a row have it. -/
def readRun? (code : PrefixCode) (previous : Option Nat) (bits : Bits) : Option ((Nat × Nat) × Bits) := do
  let (s,bits) ← code.read? bits
  match s with
  | 16 =>
    let length ← previous
    let (n,bits) ← readNumber? 2 bits
    return ((length,3 + n),bits)
  | 17 =>
    let (n,bits) ← readNumber? 3 bits
    return ((0,3 + n),bits)
  | 18 =>
    let (n,bits) ← readNumber? 7 bits
    return ((0,11 + n),bits)
  | length => return ((length,1),bits)

private theorem length_of_readRun? {code : PrefixCode} {previous : Option Nat} {run : Nat × Nat}
    {bits rest : Bits} (h : readRun? code previous bits = some (run,rest)) :
    rest.length < bits.length := by
  simp only [readRun?,Option.bind_eq_bind,Option.bind_eq_some_iff,Prod.exists] at h
  obtain ⟨s,after,e,h⟩ := h
  have := PrefixCode.length_of_read? e
  split at h
  · simp only [Option.bind_eq_some_iff,Prod.exists] at h
    obtain ⟨_,-,_,_,e,h⟩ := h
    have := length_of_readNumber? e
    cases h
    omega
  · simp only [Option.bind_eq_some_iff,Prod.exists] at h
    obtain ⟨_,_,e,h⟩ := h
    have := length_of_readNumber? e
    cases h
    omega
  · simp only [Option.bind_eq_some_iff,Prod.exists] at h
    obtain ⟨_,_,e,h⟩ := h
    have := length_of_readNumber? e
    cases h
    omega
  · cases h; assumption

/-- Reads the lengths of `missing` more code words. `before` holds the earlier ones, the latest first. -/
def readLengths? (code : PrefixCode) (missing : Nat) (bits : Bits) (before : List Nat) :
    Option (List Nat × Bits) :=
  if missing = 0 then some (before.reverse,bits)
  else match _ : readRun? code before.head? bits with
    | none => none
    | some ((length,n),rest) =>
      if n ≤ missing then readLengths? code (missing - n) rest (List.replicate n length ++ before)
      else none
termination_by bits.length
decreasing_by exact length_of_readRun? ‹_›

private theorem length_of_readLengths? {code : PrefixCode} {missing : Nat} {bits rest : Bits}
    {before lengths : List Nat} (h : readLengths? code missing bits before = some (lengths,rest)) :
    rest.length ≤ bits.length := by
  fun_induction readLengths? code missing bits before with
  | case1 => cases h; exact Nat.le_refl _
  | case2 => simp at h
  | case3 missing bits before _ length n r e _ ih =>
    exact Nat.le_trans (ih h) (Nat.le_of_lt (length_of_readRun? e))
  | case4 => simp at h

/-- The symbols of the code for lengths, in the order in which a block describes them. -/
def lengthOrder : List Nat := [16,17,18,0,8,7,9,6,10,5,11,4,12,3,13,2,14,1,15]

def readTriples? : Nat → Bits → Option (List Nat × Bits)
  | 0,bits => some ([],bits)
  | n + 1,bits => do
    let (v,bits) ← readNumber? 3 bits
    let (vs,bits) ← readTriples? n bits
    return (v :: vs,bits)

private theorem length_of_readTriples? {n : Nat} {vs : List Nat} {bits rest : Bits}
    (h : readTriples? n bits = some (vs,rest)) : rest.length ≤ bits.length := by
  induction n generalizing bits vs with
  | zero => cases h; exact Nat.le_refl _
  | succ n ih =>
    simp only [readTriples?,Option.bind_eq_bind,Option.bind_eq_some_iff,Prod.exists] at h
    obtain ⟨_,_,first,_,_,others,h⟩ := h
    cases h
    have := length_of_readNumber? first
    have := ih others
    omega

def readCodes? (bits : Bits) : Option (BlockCodes × Bits) := do
  let (n,bits) ← readNumber? 5 bits
  let mains := 257 + n
  let (n,bits) ← readNumber? 5 bits
  let distances := 1 + n
  let (n,bits) ← readNumber? 4 bits
  if 286 < mains || 30 < distances then none
  let (triples,bits) ← readTriples? (4 + n) bits
  let described := lengthOrder.zip triples
  let code ← PrefixCode.ofLengths? ((List.range 19).map fun s => (described.lookup s).getD 0)
  if !code.isFull then none
  let (lengths,bits) ← readLengths? code (mains + distances) bits []
  let main ← PrefixCode.ofLengths? (lengths.take mains)
  let distance ← PrefixCode.ofLengths? (lengths.drop mains)
  return (⟨main,distance⟩,bits)

private theorem length_of_readCodes? {codes : BlockCodes} {bits rest : Bits}
    (h : readCodes? bits = some (codes,rest)) : rest.length ≤ bits.length := by
  simp only [readCodes?,Option.bind_eq_bind,Option.bind_eq_some_iff,Prod.exists] at h
  obtain ⟨_,_,e1,_,_,e2,_,_,e3,h⟩ := h
  have := length_of_readNumber? e1
  have := length_of_readNumber? e2
  have := length_of_readNumber? e3
  split at h
  · simp at h
  simp only [Option.bind_eq_some_iff,Prod.exists,Option.pure_def] at h
  obtain ⟨_,_,e4,_,_,h⟩ := h
  have := length_of_readTriples? e4
  split at h
  · simp at h
  simp only [Option.bind_eq_some_iff,Prod.exists] at h
  obtain ⟨_,_,e5,_,_,_,_,h⟩ := h
  have := length_of_readLengths? e5
  cases h
  omega

def copyBytes? : Nat → Bits → ByteArray → Option (ByteArray × Bits)
  | 0,bits,out => some (out,bits)
  | n + 1,bits,out =>
    match readNumber? 8 bits with
    | none => none
    | some (b,bits) => copyBytes? n bits (out.push (UInt8.ofNat b))

private theorem length_of_copyBytes? {n : Nat} {bits rest : Bits} {out result : ByteArray}
    (h : copyBytes? n bits out = some (result,rest)) : rest.length ≤ bits.length := by
  fun_induction copyBytes? n bits out with
  | case1 => cases h; exact Nat.le_refl _
  | case2 => simp at h
  | case3 n bits out b bits' e ih =>
    have := length_of_readNumber? e
    have := ih h
    omega

/-- A block of bytes as they are: their number, its complement, and the bytes. -/
def inflateStored? (bits : Bits) (out : ByteArray) : Option (ByteArray × Bits) := do
  let (n,bits) ← readNumber? 16 (alignToByte bits)
  let (complement,bits) ← readNumber? 16 bits
  if n + complement = 0xFFFF then copyBytes? n bits out else none

private theorem length_of_inflateStored? {bits rest : Bits} {out result : ByteArray}
    (h : inflateStored? bits out = some (result,rest)) : rest.length ≤ bits.length := by
  simp only [inflateStored?,Option.bind_eq_bind,Option.bind_eq_some_iff,Prod.exists] at h
  obtain ⟨_,_,e1,_,_,e2,h⟩ := h
  have := length_alignToByte_le bits
  have := length_of_readNumber? e1
  have := length_of_readNumber? e2
  split at h
  · have := length_of_copyBytes? h
    omega
  · simp at h

/-- What follows the two bits that give the kind of the block. -/
def inflateBlock? (kind : Nat) (bits : Bits) (out : ByteArray) : Option (ByteArray × Bits) :=
  match kind with
  | 0 => inflateStored? bits out
  | 1 => fixedCodes?.bind fun codes => inflateItems? codes bits out
  | 2 => (readCodes? bits).bind fun (codes,bits) => inflateItems? codes bits out
  | _ => none

private theorem length_of_inflateBlock? {kind : Nat} {bits rest : Bits} {out result : ByteArray}
    (h : inflateBlock? kind bits out = some (result,rest)) : rest.length ≤ bits.length := by
  match kind,h with
  | 0,h => exact length_of_inflateStored? h
  | 1,h =>
    simp only [inflateBlock?,Option.bind_eq_some_iff] at h
    obtain ⟨_,-,h⟩ := h
    exact length_of_inflateItems? h
  | 2,h =>
    simp only [inflateBlock?,Option.bind_eq_some_iff] at h
    obtain ⟨⟨_,_⟩,e,h⟩ := h
    exact Nat.le_trans (length_of_inflateItems? h) (length_of_readCodes? e)
  | kind + 3,h => simp [inflateBlock?] at h

def inflateFrom? (bits : Bits) (out : ByteArray) : Option (ByteArray × Bits) :=
  match _ : readNumber? 3 bits with
  | none => none
  | some (header,bits') =>
    match _ : inflateBlock? (header / 2) bits' out with
    | none => none
    | some (out,rest) => if header % 2 = 1 then some (out,rest) else inflateFrom? rest out
termination_by bits.length
decreasing_by
  have := length_of_readNumber? ‹readNumber? 3 bits = _›
  have := length_of_inflateBlock? ‹inflateBlock? _ bits' _ = _›
  omega

def inflate? (bits : Bits) : Option (ByteArray × Bits) := inflateFrom? bits .empty

end Sm83.Gzip
