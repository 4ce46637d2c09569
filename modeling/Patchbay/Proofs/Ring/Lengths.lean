import Patchbay.Proofs.Ring.Bounds
import Patchbay.Proofs.Ring.Destinations

/-!
# How much a read finds

How many bytes a read finds is told by the cursors and by the notes of the spans. The data of the
spans has no part in it, so two memories that differ only there are read to the same length.
-/
namespace Patchbay
open RingGeometry

/-- Two memories of a ring that differ in the data of the spans at most. -/
structure RingGeometry.Alike (g : RingGeometry) (m m' : Memory) : Prop where
  size : m'.size = m.size
  notes : ∀ j < g.dataStart, m'.byte j = m.byte j

theorem RingGeometry.le_dataStart_of_header (g : RingGeometry) {i k : Nat}
    (h : i + k ≤ headerBytes) : i + k ≤ g.dataStart :=
  Nat.le_trans h g.headerBytes_le_dataStart

theorem RingMapping.length_gather_eq (g : RingGeometry) (write cursor : UInt64) (want : Nat)
    (m : Memory) : (gather g write cursor want m).1.length =
      if want ≠ 0 ∧ cursor < write then
        let e := extent g m cursor
        let n := min want (e.1 - e.2)
        if e.2 + n ≥ e.1 then
          n + (gather g write (cursor + 1) (want - n) (advance m cursor (e.2 + n) e.1)).1.length
        else n
      else 0 := by
  rw [gather]
  split
  · dsimp only
    split <;> simp
  · rfl

namespace RingGeometry.Alike

variable {g : RingGeometry} {m m' : Memory} {i : Nat}

theorem get32 (h : g.Alike m m') (hi : i + 4 ≤ g.dataStart) : m'.get32 i = m.get32 i :=
  Memory.get32_congr fun j _ hj => h.notes j (Nat.lt_of_lt_of_le hj hi)

theorem get64 (h : g.Alike m m') (hi : i + 8 ≤ g.dataStart) : m'.get64 i = m.get64 i :=
  Memory.get64_congr fun j _ hj => h.notes j (Nat.lt_of_lt_of_le hj hi)

theorem blit (h : g.Alike m m') (i : Nat) (bs : List UInt8) :
    g.Alike (m.blit i bs) (m'.blit i bs) := by
  induction bs generalizing i m m' with
  | nil => exact h
  | cons b bs ih =>
      refine ih ⟨by simp [h.size], fun j hj => ?_⟩ (i + 1)
      rw [Memory.byte_setByte, Memory.byte_setByte, h.size, h.notes j hj]

theorem advance (h : g.Alike m m') (cursor : UInt64) (consumed valid : Nat) :
    g.Alike (RingMapping.advance m cursor consumed valid)
      (RingMapping.advance m' cursor consumed valid) := by
  unfold RingMapping.advance
  split
  · exact (h.blit _ _).blit _ _
  · exact h.blit _ _

theorem extent (h : g.Alike m m') (hg : 0 < g.spanCount.toNat) (cursor : UInt64) :
    RingMapping.extent g m' cursor = RingMapping.extent g m cursor := by
  have hnote : g.metaAt cursor + 8 ≤ g.dataStart := by
    have hindex := g.index_lt hg cursor
    have hspan : g.index cursor * metaBytes + metaBytes ≤ g.spanCount.toNat * metaBytes := by
      rw [← Nat.succ_mul]
      exact Nat.mul_le_mul_right _ hindex
    simp only [metaAt, dataStart, metaBytes] at hspan ⊢
    omega
  unfold RingMapping.extent
  rw [h.get64 hnote, h.get64 (g.le_dataStart_of_header (by decide))]

theorem length_gather (h : g.Alike m m') (hg : 0 < g.spanCount.toNat) (write cursor : UInt64)
    (want : Nat) : (RingMapping.gather g write cursor want m').1.length =
      (RingMapping.gather g write cursor want m).1.length := by
  induction cursor, want, m using RingMapping.gather.induct g write generalizing m' with
  | case1 cursor want m hgo e n m₁ hspent =>
      rename_i ih
      rw [RingMapping.length_gather_eq, RingMapping.length_gather_eq, h.extent hg, if_pos hgo,
        if_pos hgo]
      dsimp only
      rw [if_pos hspent, if_pos hspent, ih (h.advance cursor _ _)]
  | case2 cursor want m hgo e n =>
      rename_i hspent

      rw [RingMapping.length_gather_eq, RingMapping.length_gather_eq, h.extent hg, if_pos hgo,
        if_pos hgo]
      dsimp only
      rw [if_neg hspent, if_neg hspent]
  | case3 cursor want m hstop =>
      rw [RingMapping.gather, RingMapping.gather, dif_neg hstop, dif_neg hstop]

end RingGeometry.Alike

theorem RingMapping.bytesRead_readInto_alike {r : RingMapping} {m m' : Memory}
    (hg : r.geometry.check = .ok ()) (h : r.geometry.Alike m m') (n : Nat) :
    (r.readInto m' n).1.map (·.bytesRead) = (r.readInto m n).1.map (·.bytesRead) := by
  have hreleased : r.isReleased m' = r.isReleased m := by
    rw [isReleased, isReleased, h.get32 (le_dataStart_of_header _ (by decide))]
  have hbusy : m'.get32 consumerBusyAt = m.get32 consumerBusyAt :=
    h.get32 (le_dataStart_of_header _ (by decide))
  have hread : m'.get64 readAt = m.get64 readAt := h.get64 (le_dataStart_of_header _ (by decide))
  have hwrite : m'.get64 writeAt = m.get64 writeAt := h.get64 (le_dataStart_of_header _ (by decide))
  unfold readInto enter
  rw [hreleased, hbusy]
  by_cases hopen : r.isReleased m
  · rw [if_pos hopen, if_pos hopen]
  · by_cases hfree : m.get32 consumerBusyAt ≠ 0
    · rw [if_neg hopen, if_neg hopen, if_pos hfree, if_pos hfree]
    · have hgather := h.length_gather (spanCount_pos hg) (m.get64 writeAt) (m.get64 readAt) n
      rw [if_neg hopen, if_neg hopen, if_neg hfree, if_neg hfree, hread, hwrite]
      exact congrArg Except.ok hgather

end Patchbay
