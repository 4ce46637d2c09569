import Patchbay.Number.LittleEndian

/-!
# Shared memory

The bytes behind a ring, as every mapping of it sees them. Words are little endian. Reading
outside the memory gives zeros and writing there does nothing, so all operations are total;
that a ring never does either is a fact about rings.
-/
namespace Patchbay

structure Memory where
  size : Nat
  /-- The bytes up to the last one that was ever written; those after them are zero. -/
  cells : Array UInt8
deriving DecidableEq, Repr

namespace Memory

/-- `n` zero bytes. -/
def zeros (n : Nat) : Memory := ⟨n, #[]⟩

def ofList (bs : List UInt8) : Memory := ⟨bs.length, bs.toArray⟩

def byte (m : Memory) (i : Nat) : UInt8 := m.cells.getD i 0

/-- Writes one byte. Only the bytes before it have to be there for that, so a large memory takes
no more room than what was written. -/
def setByte (m : Memory) (i : Nat) (b : UInt8) : Memory :=
  if i < m.size then
    { m with cells := (m.cells ++ Array.replicate (i + 1 - m.cells.size) 0).setIfInBounds i b }
  else m

/-- The `n` bytes from `i` on. -/
def slice (m : Memory) (i : Nat) : Nat → List UInt8
  | 0 => []
  | n + 1 => m.byte i :: m.slice (i + 1) n

def toList (m : Memory) : List UInt8 := m.slice 0 m.size

/-- Writes bytes from `i` on. -/
def blit (m : Memory) (i : Nat) : List UInt8 → Memory
  | [] => m
  | b :: bs => (m.setByte i b).blit (i + 1) bs

def get32 (m : Memory) (i : Nat) : UInt32 := UInt32.ofNat (LittleEndian.value (m.slice i 4))

def set32 (m : Memory) (i : Nat) (w : UInt32) : Memory := m.blit i (LittleEndian.bytes 4 w.toNat)

def get64 (m : Memory) (i : Nat) : UInt64 := UInt64.ofNat (LittleEndian.value (m.slice i 8))

def set64 (m : Memory) (i : Nat) (w : UInt64) : Memory := m.blit i (LittleEndian.bytes 8 w.toNat)

@[simp]
theorem size_setByte (m : Memory) (i : Nat) (b : UInt8) : (m.setByte i b).size = m.size := by
  unfold setByte
  split <;> rfl

@[simp]
theorem size_blit (m : Memory) (i : Nat) (bs : List UInt8) : (m.blit i bs).size = m.size := by
  induction bs generalizing m i with
  | nil => rfl
  | cons b bs ih => simp [blit, ih]

@[simp]
theorem length_slice (m : Memory) (i n : Nat) : (m.slice i n).length = n := by
  induction n generalizing i with
  | zero => rfl
  | succ n ih => simp [slice, ih]

@[simp]
theorem byte_zeros (n i : Nat) : (zeros n).byte i = 0 := by
  simp [zeros, byte]

theorem byte_setByte (m : Memory) (i j : Nat) (b : UInt8) :
    (m.setByte i b).byte j = if i = j ∧ i < m.size then b else m.byte j := by
  unfold setByte
  by_cases hi : i < m.size
  · simp only [hi, if_true, and_true, byte, Array.getD_eq_getD_getElem?,
      Array.getElem?_setIfInBounds, Array.size_append, Array.size_replicate]
    by_cases h : i = j
    · subst h
      have : i < m.cells.size + (i + 1 - m.cells.size) := by omega
      simp [this]
    · simp only [h, if_false, Array.getElem?_append, Array.getElem?_replicate]
      by_cases hj : j < m.cells.size
      · simp [hj]
      · simp only [hj, if_false]
        split <;> simp [Array.getElem?_eq_none (Nat.le_of_not_lt hj)]
  · simp [hi]

end Memory
end Patchbay
