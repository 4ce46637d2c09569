import Mathlib.Algebra.Group.Nat.Defs
import Patchbay.Number.Single

/-!
# Shares as single precision numbers

A share is a ratio of natural numbers that is at most one. Rounding keeps it between zero and
one, the bounds included, and to cut such a number to that interval changes nothing.
-/
namespace Patchbay.Single

/-- A number from zero to one. -/
def IsShare (x : Single) : Prop :=
  zero.le x ∧ x.le one

variable {x : Single} {n d : Nat}

theorem isShare_zero : IsShare zero := by
  unfold IsShare
  decide

theorem IsShare.clamp (h : x.IsShare) : x.clamp zero one = x := by
  obtain ⟨hlow, hhigh⟩ := h
  simp only [le, Bool.and_eq_true, Bool.not_eq_true', decide_eq_true_eq] at hlow hhigh
  have hnotBelow : ¬ x.lt zero := by
    simp only [lt, Bool.and_eq_true, decide_eq_true_eq, not_and]
    exact fun _ => Int.not_lt.mpr hlow.2
  have hnotAbove : ¬ one.lt x := by
    simp only [lt, Bool.and_eq_true, decide_eq_true_eq, not_and]
    exact fun _ => Int.not_lt.mpr hhigh.2
  rw [Single.clamp, if_neg hnotBelow, if_neg hnotAbove]

theorem magnitude_ofMagnitude {m : Nat} (h : m < 0x80000000) :
    (ofMagnitude false m).magnitude = m ∧ ¬ (ofMagnitude false m).isNegative := by
  have hbits : (ofMagnitude false m).bits.toNat = m := by
    show (UInt32.ofNat (m + 0)).toNat = m
    rw [Nat.add_zero, UInt32.toNat_ofNat']
    exact Nat.mod_eq_of_lt (by omega)
  constructor
  · rw [magnitude, hbits, Nat.mod_eq_of_lt h]
  · rw [isNegative, decide_eq_true_eq, ge_iff_le, UInt32.le_iff_toNat_le, hbits]
    exact Nat.not_le.mpr h

theorem isShare_ofMagnitude {m : Nat} (h : m ≤ 0x3f800000) : (ofMagnitude false m).IsShare := by
  obtain ⟨hmagnitude, hsign⟩ := magnitude_ofMagnitude (m := m) (by omega)
  have hone : one.magnitude = 0x3f800000 := by decide
  simp only [IsShare, le, isNaN, key, hmagnitude, hsign, hone, Bool.and_eq_true,
    Bool.not_eq_true', decide_eq_true_eq, decide_eq_false_iff_not]
  refine ⟨⟨⟨by decide, by omega⟩, ?_⟩, ⟨by omega, by omega⟩, ?_⟩
  · have hzero : (if zero.isNegative = true then -(zero.magnitude : Int)
        else zero.magnitude) = 0 := by decide
    rw [hzero]
    exact Int.natCast_nonneg m
  · have hpositive : (if one.isNegative = true then -((0x3f800000 : Nat) : Int)
        else ((0x3f800000 : Nat) : Int)) = 0x3f800000 := by decide
    rw [hpositive]
    exact Int.ofNat_le.mpr h

theorem nearestEven_le {num den k : Nat} (hden : 0 < den) (h : num ≤ k * den) :
    nearestEven num den ≤ k := by
  have hq : num / den ≤ k := Nat.div_le_of_le_mul (Nat.mul_comm k den ▸ h)
  unfold nearestEven
  dsimp only
  split
  · -- A quotient that is rounded up has a remainder, so it is not yet `k`.
    rename_i hup
    have hsplit := Nat.div_add_mod num den
    have hrest : 0 < num % den := by
      simp only [gt_iff_lt, Bool.or_eq_true, decide_eq_true_eq, Bool.and_eq_true] at hup
      omega
    refine Nat.lt_of_le_of_ne hq fun hsame => ?_
    rw [hsame, Nat.mul_comm] at hsplit
    omega
  · exact hq

theorem scaled_of_nonneg {k : Int} (h : 0 ≤ k) : scaled n d k = (n * 2 ^ k.toNat, d) := by
  rw [scaled, if_pos h, Nat.shiftLeft_eq]

/-- The next power of two after the exponent is above the ratio. -/
theorem lt_of_exponentOf (hn : 0 < n) (hle : n ≤ d) :
    exponentOf n d ≤ 0 ∧ n * 2 ^ (-exponentOf n d).toNat < 2 * d := by
  have hd : d ≠ 0 := Nat.ne_of_gt (Nat.lt_of_lt_of_le hn hle)
  have hlog : n.log2 ≤ d.log2 := by
    rw [Nat.le_log2 hd]
    exact Nat.le_trans (Nat.log2_self_le (Nat.ne_of_gt hn)) hle
  have hk : (-((n.log2 : Int) - d.log2)).toNat = d.log2 - n.log2 := by omega
  unfold exponentOf
  dsimp only
  rw [scaled_of_nonneg (by omega), hk]
  dsimp only
  split
  · rename_i hsmall
    refine ⟨by omega, ?_⟩
    have hnext : (-((n.log2 : Int) - d.log2 - 1)).toNat = d.log2 - n.log2 + 1 := by omega
    rw [hnext, Nat.pow_succ, ← Nat.mul_assoc, Nat.mul_comm 2 d]
    exact Nat.mul_lt_mul_of_pos_right hsmall Nat.two_pos
  · refine ⟨by omega, ?_⟩
    rw [hk]
    calc n * 2 ^ (d.log2 - n.log2)
        < 2 ^ (n.log2 + 1) * 2 ^ (d.log2 - n.log2) :=
          Nat.mul_lt_mul_of_pos_right Nat.lt_log2_self (Nat.two_pow_pos _)
      _ = 2 * 2 ^ d.log2 := by
          rw [← Nat.pow_add, ← Nat.pow_succ']
          congr 1
          omega
      _ ≤ 2 * d := Nat.mul_le_mul_left 2 (Nat.log2_self_le hd)

theorem nearestEven_significand {t : Nat} (hd : 0 < d) (h : n * 2 ^ t ≤ (t + 1) * d) :
    nearestEven (n * 2 ^ (23 + t)) d ≤ (t + 1) * 2 ^ 23 := by
  refine nearestEven_le hd ?_
  calc n * 2 ^ (23 + t) = n * 2 ^ t * 2 ^ 23 := by rw [Nat.add_comm, Nat.pow_add, Nat.mul_assoc]
    _ ≤ (t + 1) * d * 2 ^ 23 := Nat.mul_le_mul_right _ h
    _ = (t + 1) * 2 ^ 23 * d := by rw [Nat.mul_right_comm]

/-- A ratio that is at most one is rounded to a number that is at most one. -/
theorem isShare_ofRatio (hd : 0 < d) (hle : n ≤ d) : (ofRatio false n d).IsShare := by
  unfold ofRatio
  split
  · exact isShare_ofMagnitude (Nat.zero_le _)
  · rename_i hn
    obtain ⟨hexponent, hbound⟩ := lt_of_exponentOf (Nat.pos_of_ne_zero hn) hle
    obtain ⟨t, ht, htle⟩ : ∃ t : Nat, max (exponentOf n d) (-126) = -(t : Int) ∧ t ≤ 126 :=
      ⟨(-max (exponentOf n d) (-126)).toNat, by omega, by omega⟩
    have hpow : n * 2 ^ t ≤ (t + 1) * d := by
      rcases Nat.eq_zero_or_pos t with rfl | hpos
      · simpa using hle
      · have hmono : n * 2 ^ t ≤ n * 2 ^ (-exponentOf n d).toNat :=
          Nat.mul_le_mul_left n (Nat.pow_le_pow_right Nat.two_pos (by omega))
        have htwo : 2 * d ≤ (t + 1) * d := Nat.mul_le_mul_right d (by omega)
        omega
    have hround := nearestEven_significand hd hpow
    have hshift : (23 - -(t : Int)).toNat = 23 + t := by omega
    have hbase : (-(t : Int) + 126).toNat = 126 - t := by omega
    dsimp only
    rw [ht, scaled_of_nonneg (by omega), hshift, hbase]
    dsimp only
    generalize nearestEven (n * 2 ^ (23 + t)) d = significand at hround
    refine isShare_ofMagnitude (Nat.le_trans (Nat.min_le_left _ _) ?_)
    omega

end Patchbay.Single
