/-!
The flat 64 KiB address space. Main statements: `read_write` says what a write does to every
address, and `ext_read` that a memory is nothing but its bytes.
-/
namespace Sm83

structure Memory where
  bytes : ByteArray
  size_eq : bytes.size = 0x10000

namespace Memory

private theorem index_lt (m : Memory) (a : UInt16) : a.toNat < m.bytes.size := by
  rw [m.size_eq]; exact a.toNat_lt

def filled (b : UInt8) : Memory := ⟨⟨Array.replicate 0x10000 b⟩,by simp [ByteArray.size]⟩

def zero : Memory := filled 0

instance : Inhabited Memory := ⟨zero⟩

def read (m : Memory) (a : UInt16) : UInt8 := m.bytes.get a.toNat (m.index_lt a)

def write (m : Memory) (a : UInt16) (b : UInt8) : Memory :=
  ⟨m.bytes.set a.toNat b (m.index_lt a),by
    rw [← ByteArray.size_data,ByteArray.data_set,Array.size_set,ByteArray.size_data,m.size_eq]⟩

/-- Stores the bytes one after the other from `a` on, past the last address back at 0. -/
def store (m : Memory) (a : UInt16) : List UInt8 → Memory
  | [] => m
  | b :: bs => (m.write a b).store (a + 1) bs

/-- The number of addresses from `a` to the end of the address space. -/
def room (a : UInt16) : Nat := 0x10000 - a.toNat

/-- Stores from `a` on as much of the data as fits below the end of the address space. -/
def load (m : Memory) (a : UInt16) (data : List UInt8) : Memory := m.store a (data.take (room a))

/-- Stores the data from `a` on, if all of it fits below the end of the address space. -/
def loadWhole (m : Memory) (a : UInt16) (data : List UInt8) : Option Memory :=
  if data.length ≤ room a then some (m.store a data) else none

/-- The `n` bytes from `a` on, past the last address back at 0. -/
def slice (m : Memory) (a : UInt16) : Nat → List UInt8
  | 0 => []
  | n + 1 => m.read a :: m.slice (a + 1) n

private def tabulate (f : Nat → UInt8) : Nat → ByteArray → ByteArray
  | 0,bytes => bytes
  | n + 1,bytes => tabulate f n (bytes.push (f bytes.size))

private theorem size_tabulate (f : Nat → UInt8) (n : Nat) (bytes : ByteArray) :
    (tabulate f n bytes).size = bytes.size + n := by
  induction n generalizing bytes with
  | zero => rfl
  | succ n ih => rw [tabulate,ih,ByteArray.size_push]; omega

def ofFn (f : Nat → UInt8) : Memory :=
  ⟨tabulate f 0x10000 (.emptyWithCapacity 0x10000),by rw [size_tabulate]; rfl⟩

private theorem read_eq (m : Memory) (a : UInt16) (h : a.toNat < m.bytes.data.size) :
    m.read a = m.bytes.data[a.toNat] := rfl

theorem read_write (m : Memory) (a c : UInt16) (b : UInt8) :
    (m.write a b).read c = if c = a then b else m.read c := by
  rw [read_eq _ _ ((m.write a b).index_lt c),read_eq m c (m.index_lt c)]
  simp only [write,ByteArray.data_set,Array.getElem_set]
  by_cases h : c = a
  · simp [h]
  · have : a.toNat ≠ c.toNat := fun e => h (UInt16.toNat_inj.mp e.symm)
    simp [h,this]

@[simp] theorem read_filled (b : UInt8) (a : UInt16) : (filled b).read a = b := by
  rw [read_eq _ _ ((filled b).index_lt a)]
  simp [filled]

@[simp] theorem read_zero (a : UInt16) : zero.read a = 0 := read_filled 0 a

theorem ext_read {m n : Memory} (h : ∀ a, m.read a = n.read a) : m = n := by
  obtain ⟨mb,hm⟩ := m
  obtain ⟨nb,hn⟩ := n
  suffices mb = nb by subst this; rfl
  refine ByteArray.ext_getElem (hm.trans hn.symm) fun i hi _ => ?_
  have small : i < 65536 := by rw [hm] at hi; exact hi
  have e : (UInt16.ofNat i).toNat = i := by simp [small]
  have same := h (UInt16.ofNat i)
  rw [read_eq _ _ (index_lt _ _),read_eq _ _ (index_lt _ _)] at same
  simp only [e] at same
  exact same

end Memory
end Sm83
