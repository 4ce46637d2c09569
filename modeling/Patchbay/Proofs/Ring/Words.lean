import Mathlib.Algebra.Group.Nat.Defs
import Patchbay.Ring.Geometry

/-!
# Bytes and words of a ring

What a write into shared memory leaves alone, and what a read finds after it. Then the layout:
the header, the notes of each span and the data of each span lie apart from each other and
inside the memory, and cursors less than one turn apart have spans of their own.
-/
namespace Patchbay
namespace Memory

variable {m m' : Memory}

theorem slice_congr {i n : Nat} (h : ∀ j, i ≤ j → j < i + n → m'.byte j = m.byte j) :
    m'.slice i n = m.slice i n := by
  induction n generalizing i with
  | zero => rfl
  | succ n ih =>
      simp only [slice]
      rw [h i (Nat.le_refl i) (by omega), ih fun j h₁ h₂ => h j (by omega) (by omega)]

theorem get32_congr {i : Nat} (h : ∀ j, i ≤ j → j < i + 4 → m'.byte j = m.byte j) :
    m'.get32 i = m.get32 i := by
  rw [get32, get32, slice_congr h]

theorem get64_congr {i : Nat} (h : ∀ j, i ≤ j → j < i + 8 → m'.byte j = m.byte j) :
    m'.get64 i = m.get64 i := by
  rw [get64, get64, slice_congr h]

theorem slice_add (m : Memory) (i k n : Nat) :
    m.slice i (k + n) = m.slice i k ++ m.slice (i + k) n := by
  induction k generalizing i with
  | zero => simp [slice]
  | succ k ih =>
      rw [Nat.succ_add]
      simp only [slice, List.cons_append, List.cons.injEq, true_and]
      rw [ih (i + 1), Nat.add_assoc, Nat.add_comm 1 k]

theorem slice_part {i k n l : Nat} (h : k + n ≤ l) :
    m.slice (i + k) n = ((m.slice i l).drop k).take n := by
  obtain ⟨r, rfl⟩ := Nat.exists_eq_add_of_le h
  rw [Nat.add_assoc, slice_add, List.drop_left' (length_slice m i k), slice_add,
    List.take_left' (length_slice m _ n)]

private theorem value_slice_zeros (n i k : Nat) :
    LittleEndian.value ((zeros n).slice i k) = 0 := by
  induction k generalizing i with
  | zero => rfl
  | succ k ih => simp [slice, LittleEndian.value, ih]

@[simp]
theorem get32_zeros (n i : Nat) : (zeros n).get32 i = 0 := by
  rw [get32, value_slice_zeros]
  rfl

@[simp]
theorem get64_zeros (n i : Nat) : (zeros n).get64 i = 0 := by
  rw [get64, value_slice_zeros]
  rfl

theorem byte_blit_of_outside {i j : Nat} {bs : List UInt8} (h : j < i ∨ i + bs.length ≤ j) :
    (m.blit i bs).byte j = m.byte j := by
  induction bs generalizing m i with
  | nil => rfl
  | cons b bs ih =>
      simp only [List.length_cons] at h
      have hne : i ≠ j := by omega
      rw [blit, ih (by omega), byte_setByte, if_neg fun hc => hne hc.1]

@[simp]
theorem size_set32 (m : Memory) (i : Nat) (w : UInt32) : (m.set32 i w).size = m.size :=
  size_blit m i _

@[simp]
theorem size_set64 (m : Memory) (i : Nat) (w : UInt64) : (m.set64 i w).size = m.size :=
  size_blit m i _

theorem byte_set32_of_outside {i j : Nat} {w : UInt32} (h : j < i ∨ i + 4 ≤ j) :
    (m.set32 i w).byte j = m.byte j :=
  byte_blit_of_outside (by simpa using h)

theorem byte_set64_of_outside {i j : Nat} {w : UInt64} (h : j < i ∨ i + 8 ≤ j) :
    (m.set64 i w).byte j = m.byte j :=
  byte_blit_of_outside (by simpa using h)

theorem slice_blit_self {i : Nat} {bs : List UInt8} (h : i + bs.length ≤ m.size) :
    (m.blit i bs).slice i bs.length = bs := by
  induction bs generalizing m i with
  | nil => rfl
  | cons b bs ih =>
      simp only [List.length_cons] at h ⊢
      have hb : ((m.setByte i b).blit (i + 1) bs).byte i = b := by
        rw [byte_blit_of_outside (Or.inl (Nat.lt_succ_self i)), byte_setByte,
          if_pos ⟨rfl, by omega⟩]
      rw [blit, slice, hb, ih (by rw [size_setByte]; omega)]

theorem get32_set32_self {i : Nat} {w : UInt32} (h : i + 4 ≤ m.size) :
    (m.set32 i w).get32 i = w := by
  have hs : (m.blit i (LittleEndian.bytes 4 w.toNat)).slice i
      (LittleEndian.bytes 4 w.toNat).length = LittleEndian.bytes 4 w.toNat :=
    slice_blit_self (by simpa using h)
  have hlt : w.toNat < Nat.pow 256 4 := w.toNat_lt
  rw [LittleEndian.length_bytes] at hs
  rw [get32, set32, hs, LittleEndian.value_bytes, Nat.mod_eq_of_lt hlt, UInt32.ofNat_toNat]

theorem get64_set64_self {i : Nat} {w : UInt64} (h : i + 8 ≤ m.size) :
    (m.set64 i w).get64 i = w := by
  have hs : (m.blit i (LittleEndian.bytes 8 w.toNat)).slice i
      (LittleEndian.bytes 8 w.toNat).length = LittleEndian.bytes 8 w.toNat :=
    slice_blit_self (by simpa using h)
  have hlt : w.toNat < Nat.pow 256 8 := w.toNat_lt
  rw [LittleEndian.length_bytes] at hs
  rw [get64, set64, hs, LittleEndian.value_bytes, Nat.mod_eq_of_lt hlt, UInt64.ofNat_toNat]

theorem get64_set64_of_disjoint {i j : Nat} {w : UInt64} (h : j + 8 ≤ i ∨ i + 8 ≤ j) :
    (m.set64 i w).get64 j = m.get64 j :=
  get64_congr fun _ _ _ => byte_set64_of_outside (by omega)

theorem get32_set64_of_disjoint {i j : Nat} {w : UInt64} (h : j + 4 ≤ i ∨ i + 8 ≤ j) :
    (m.set64 i w).get32 j = m.get32 j :=
  get32_congr fun _ _ _ => byte_set64_of_outside (by omega)

theorem get64_set32_of_disjoint {i j : Nat} {w : UInt32} (h : j + 8 ≤ i ∨ i + 4 ≤ j) :
    (m.set32 i w).get64 j = m.get64 j :=
  get64_congr fun _ _ _ => byte_set32_of_outside (by omega)

theorem get32_set32_of_disjoint {i j : Nat} {w : UInt32} (h : j + 4 ≤ i ∨ i + 4 ≤ j) :
    (m.set32 i w).get32 j = m.get32 j :=
  get32_congr fun _ _ _ => byte_set32_of_outside (by omega)

end Memory

namespace RingGeometry

variable {g : RingGeometry} {a b : Nat}

theorem toNat_cursor (h : a < 2 ^ 64) : (UInt64.ofNat a).toNat = a :=
  UInt64.toNat_ofNat_of_lt' h

theorem spanCount_eq_two_pow (h : g.check = .ok ()) : ∃ k, g.spanCount.toNat = 2 ^ k := by
  have hp : isPowerOfTwo g.spanCount.toNat := by
    unfold check at h
    split at h
    · cases h
    · rename_i hp
      simpa using hp
  unfold isPowerOfTwo at hp
  simp only [Bool.and_eq_true, decide_eq_true_eq, Nat.one_shiftLeft] at hp
  exact ⟨_, hp.2.symm⟩

theorem spanCount_pos (h : g.check = .ok ()) : 0 < g.spanCount.toNat := by
  obtain ⟨k, hk⟩ := spanCount_eq_two_pow h
  rw [hk]
  exact Nat.two_pow_pos k

theorem toNat_mask (hg : 0 < g.spanCount.toNat) : g.mask.toNat = g.spanCount.toNat - 1 := by
  have hone : (1 : UInt64) ≤ g.spanCount.toUInt64 := by
    rw [UInt64.le_iff_toNat_le, UInt32.toNat_toUInt64]
    exact hg
  rw [mask, UInt64.toNat_sub_of_le _ _ hone, UInt32.toNat_toUInt64]
  rfl

theorem index_lt (hg : 0 < g.spanCount.toNat) (c : UInt64) : g.index c < g.spanCount.toNat := by
  have hle : g.index c ≤ g.mask.toNat := by
    rw [index, UInt64.toNat_and]
    exact Nat.and_le_right
  rw [toNat_mask hg] at hle
  omega

/-- The low bits of a cursor are its remainder by the number of spans. -/
theorem index_ofNat (hv : g.check = .ok ()) (h : a < 2 ^ 64) :
    g.index (UInt64.ofNat a) = a % g.spanCount.toNat := by
  obtain ⟨k, hk⟩ := spanCount_eq_two_pow hv
  rw [index, UInt64.toNat_and, toNat_mask (spanCount_pos hv), toNat_cursor h, hk,
    Nat.and_two_pow_sub_one_eq_mod]

theorem index_ne (hv : g.check = .ok ()) (ha : a < 2 ^ 64) (hb : b < 2 ^ 64) (hab : a < b)
    (hturn : b < a + g.spanCount.toNat) :
    g.index (UInt64.ofNat a) ≠ g.index (UInt64.ofNat b) := by
  rw [index_ofNat hv ha, index_ofNat hv hb]
  intro heq
  -- Equal remainders would put at least a whole turn between the cursors.
  have hd : g.spanCount.toNat ∣ b - a :=
    Nat.dvd_of_mod_eq_zero (Nat.sub_mod_eq_zero_of_mod_eq heq.symm)
  have hle := Nat.le_of_dvd (by omega) hd
  omega

theorem headerBytes_le_metaAt (c : UInt64) : headerBytes ≤ g.metaAt c :=
  Nat.le_add_right _ _

theorem metaAt_add_le_dataAt (hg : 0 < g.spanCount.toNat) (c d : UInt64) :
    g.metaAt c + metaBytes ≤ g.dataAt d := by
  have h := Nat.mul_le_mul_right metaBytes (index_lt hg c)
  rw [Nat.succ_mul] at h
  unfold metaAt dataAt
  omega

theorem dataAt_add_le_mappedBytes (hg : 0 < g.spanCount.toNat) (c : UInt64) :
    g.dataAt c + g.spanSize.toNat ≤ g.mappedBytes := by
  have h := Nat.mul_le_mul_right g.spanSize.toNat (index_lt hg c)
  rw [Nat.succ_mul] at h
  rw [mappedBytes, Nat.mul_add, dataAt]
  omega

theorem metaAt_disjoint {c d : UInt64} (h : g.index c ≠ g.index d) :
    g.metaAt c + metaBytes ≤ g.metaAt d ∨ g.metaAt d + metaBytes ≤ g.metaAt c := by
  unfold metaAt metaBytes
  omega

theorem dataAt_disjoint {c d : UInt64} (h : g.index c ≠ g.index d) :
    g.dataAt c + g.spanSize.toNat ≤ g.dataAt d ∨
      g.dataAt d + g.spanSize.toNat ≤ g.dataAt c := by
  unfold dataAt
  rcases Nat.lt_or_gt_of_ne h with h | h
  · have := Nat.mul_le_mul_right g.spanSize.toNat h
    rw [Nat.succ_mul] at this
    omega
  · have := Nat.mul_le_mul_right g.spanSize.toNat h
    rw [Nat.succ_mul] at this
    omega

end RingGeometry
end Patchbay
