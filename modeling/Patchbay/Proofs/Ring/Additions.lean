import Patchbay.Proofs.Ring.Bounds

/-!
# One span more

A write through a mapping whose other side may have put anything into the memory, so that the
cursors need not be those of a queue. Where they leave room, the span behind the unread ones gets
the frame and nothing else changes, also when the cursors come round.
-/
namespace Patchbay
open Memory RingGeometry

namespace Ring

/-- A write of `n` bytes gets as far as the cursors: the ring is not released, no other write is
on its way, and a span holds so much. -/
structure Accepts (r : Ring) (n : Nat) : Prop where
  isOpen : ¬ r.isReleased
  isFree : r.memory.get32 producerBusyAt = 0
  fits : n ≤ r.mapping.geometry.spanSize.toNat

/-- Not all spans are unread. -/
def hasRoom (r : Ring) : Bool :=
  RingMapping.readable r.memory < r.mapping.geometry.spanCount.toUInt64

/-- The ring has `f` as its last span, behind those that were unread before. -/
structure Gains (r r' : Ring) (f : QueuedFrame) : Prop where
  mapping : r'.mapping = r.mapping
  size : r'.memory.size = r.memory.size
  cursors : RingMapping.cursors r'.memory =
    (r.memory.get64 readAt, r.memory.get64 writeAt + 1)
  span : SpanHolds r.mapping.geometry r'.memory (r.memory.get64 writeAt).toNat f
  unread : ∀ k f', k < (RingMapping.readable r.memory).toNat →
    SpanHolds r.mapping.geometry r.memory ((r.memory.get64 readAt).toNat + k) f' →
      SpanHolds r.mapping.geometry r'.memory ((r.memory.get64 readAt).toNat + k) f'
  others : ∀ j,
    let g := r.mapping.geometry
    let w := r.memory.get64 writeAt
    (j < writeAt ∨ writeAt + 8 ≤ j) → (j < g.metaAt w ∨ g.metaAt w + metaBytes ≤ j) →
      (j < g.dataAt w ∨ g.dataAt w + g.spanSize.toNat ≤ j) → r'.memory.byte j = r.memory.byte j

end Ring

namespace RingGeometry

variable {g : RingGeometry}

theorem spanCount_dvd (hg : g.check = .ok ()) : g.spanCount.toNat ∣ 2 ^ 64 := by
  obtain ⟨k, hk⟩ := spanCount_eq_two_pow hg
  have hlt := g.spanCount.toNat_lt
  rw [hk] at hlt ⊢
  have hk32 : k < 32 := (Nat.pow_lt_pow_iff_right (by decide)).mp hlt
  exact Nat.pow_dvd_pow 2 (by omega)

/-- Less than one turn apart, two cursors never share a span, wherever they come round. -/
theorem index_ne_of_behind (hg : g.check = .ok ()) {c w : UInt64} (hne : c ≠ w)
    (hturn : w - c < g.spanCount.toUInt64) : g.index c ≠ g.index w := by
  generalize hd : w - c = d at hturn
  have hw : w = c + d := by rw [← hd, UInt64.add_comm, UInt64.sub_add_cancel]
  rw [UInt64.lt_iff_toNat_lt, UInt32.toNat_toUInt64] at hturn
  rw [index_eq_mod hg, index_eq_mod hg, hw, UInt64.toNat_add,
    Nat.mod_mod_of_dvd _ (spanCount_dvd hg)]
  intro heq
  have hdvd : g.spanCount.toNat ∣ c.toNat + d.toNat - c.toNat :=
    Nat.dvd_of_mod_eq_zero (Nat.sub_mod_eq_zero_of_mod_eq heq.symm)
  rw [Nat.add_sub_cancel_left] at hdvd
  have hzero : d.toNat = 0 := Nat.eq_zero_of_dvd_of_lt hdvd hturn
  have hd0 : d = 0 := UInt64.toNat_inj.mp hzero
  rw [hd0, UInt64.add_zero] at hw
  exact hne hw.symm

/-- How far a cursor is behind another, counted from one further behind. -/
theorem toNat_sub_cursor {c w : UInt64} {k : Nat} (hk : k ≤ (w - c).toNat) :
    (w - UInt64.ofNat (c.toNat + k)).toNat = (w - c).toNat - k := by
  have hc := c.toNat_lt
  have hw := w.toNat_lt
  rw [UInt64.toNat_sub] at hk ⊢
  rw [UInt64.toNat_ofNat', UInt64.toNat_sub]
  omega

end RingGeometry

namespace Ring

variable {r : Ring} {frame : List UInt8} {t : UInt64} {w : UInt64}

/-- The ring after a write that found room. -/
def fill (r : Ring) (frame : List UInt8) (t : UInt64) : Ring :=
  let w := r.memory.get64 writeAt
  { r with memory := (r.mapping.geometry.fillSpan r.memory w frame t).set64 writeAt (w + 1) }

theorem mapping_fill : (r.fill frame t).mapping = r.mapping := by
  unfold fill
  dsimp only

theorem memory_fill : (r.fill frame t).memory =
    (r.mapping.geometry.fillSpan r.memory (r.memory.get64 writeAt) frame t).set64 writeAt
      (r.memory.get64 writeAt + 1) := by
  unfold fill
  dsimp only

theorem Accepts.apply_write (h : r.Accepts frame.length) :
    r.apply (fun p m => p.write m frame t) =
      if r.hasRoom then (.ok (), r.fill frame t) else (.error .bufferFull, r) := by
  have hroom : r.hasRoom ↔
      ¬ RingMapping.readable r.memory ≥ r.mapping.geometry.spanCount.toUInt64 := by
    rw [hasRoom, decide_eq_true_eq, ge_iff_le, UInt64.not_le]
  have hwrite : r.mapping.write r.memory frame t =
      if r.hasRoom then (.ok (), (r.fill frame t).memory) else (.error .bufferFull, r.memory) := by
    rw [memory_fill, RingMapping.write_eq, if_neg (Nat.not_lt.mpr h.fits), RingMapping.enter,
      if_neg (show ¬ r.mapping.isReleased r.memory from h.isOpen),
      if_neg (not_not_intro h.isFree)]
    by_cases hfull : RingMapping.readable r.memory ≥ r.mapping.geometry.spanCount.toUInt64
    · rw [if_pos hfull, if_neg fun hr => hroom.mp hr hfull]
    · rw [if_neg hfull, if_pos (hroom.mpr hfull)]
  rw [apply, hwrite]
  by_cases hr : r.hasRoom
  · rw [if_pos hr, if_pos hr, memory_fill, fill]
  · rw [if_neg hr, if_neg hr]

/-- Outside the span of the write cursor and the cursor itself the memory is as before. -/
theorem byte_fill (hfits : frame.length ≤ r.mapping.geometry.spanSize.toNat) {j : Nat}
    (hcursor : j < writeAt ∨ writeAt + 8 ≤ j)
    (hn : j < r.mapping.geometry.metaAt (r.memory.get64 writeAt) ∨
      r.mapping.geometry.metaAt (r.memory.get64 writeAt) + metaBytes ≤ j)
    (hd : j < r.mapping.geometry.dataAt (r.memory.get64 writeAt) ∨
      r.mapping.geometry.dataAt (r.memory.get64 writeAt) + r.mapping.geometry.spanSize.toNat ≤ j) :
    (r.fill frame t).memory.byte j = r.memory.byte j := by
  rw [memory_fill, byte_set64_of_outside hcursor, byte_fillSpan hfits hn hd]

theorem spanHolds_fill_away (hg : r.mapping.geometry.check = .ok ())
    (hfits : frame.length ≤ r.mapping.geometry.spanSize.toNat) {c : Nat} {f : QueuedFrame}
    (hne : r.mapping.geometry.index (UInt64.ofNat c) ≠
      r.mapping.geometry.index (r.memory.get64 writeAt))
    (h : SpanHolds r.mapping.geometry r.memory c f) :
    SpanHolds r.mapping.geometry (r.fill frame t).memory c f := by
  have hpos := spanCount_pos hg
  have hheader : writeAt + 8 ≤ headerBytes := by decide
  have hmeta := metaAt_disjoint hne
  have hdata := dataAt_disjoint hne
  generalize hw : r.memory.get64 writeAt = w at hmeta hdata
  have hlow := headerBytes_le_metaAt (g := r.mapping.geometry) (UInt64.ofNat c)
  have hcw := metaAt_add_le_dataAt hpos (UInt64.ofNat c) w
  have hwc := metaAt_add_le_dataAt hpos w (UInt64.ofNat c)
  have hcc := metaAt_add_le_dataAt hpos (UInt64.ofNat c) (UInt64.ofNat c)
  refine h.congr (fun j h₁ h₂ => ?_) fun j h₁ h₂ => ?_
  · exact byte_fill hfits (by omega) (by rw [hw]; omega) (by rw [hw]; omega)
  · exact byte_fill hfits (by omega) (by rw [hw]; omega) (by rw [hw]; omega)

theorem gains_fill (hg : r.mapping.geometry.check = .ok ())
    (hsize : r.memory.size = r.mapping.geometry.mappedBytes)
    (hfits : frame.length ≤ r.mapping.geometry.spanSize.toNat) (hroom : r.hasRoom) :
    r.Gains (r.fill frame t) ⟨frame, t⟩ := by
  have hpos := spanCount_pos hg
  have hheader := headerBytes_le_mappedBytes r.mapping.geometry
  have hlow := headerBytes_le_metaAt (g := r.mapping.geometry) (r.memory.get64 writeAt)
  have hdata := metaAt_add_le_dataAt hpos (r.memory.get64 writeAt) (r.memory.get64 writeAt)
  have hlimit : headerBytes = 64 ∧ metaBytes = 16 ∧ readAt = 24 ∧ writeAt = 16 := by decide
  have hfillSize : (r.mapping.geometry.fillSpan r.memory (r.memory.get64 writeAt) frame t).size =
      r.memory.size := by
    rw [fillSpan, size_set64, size_set64, size_blit]
  constructor
  · exact mapping_fill
  · rw [memory_fill, size_set64, hfillSize]
  · have hwrite : (r.fill frame t).memory.get64 writeAt = r.memory.get64 writeAt + 1 := by
      rw [memory_fill, get64_set64_self (by rw [hfillSize]; omega)]
    have hread : (r.fill frame t).memory.get64 readAt = r.memory.get64 readAt :=
      get64_congr fun j h₁ h₂ => byte_fill hfits (by omega) (by omega) (by omega)
    rw [RingMapping.cursors, hwrite, hread]
  · have hspan := spanHolds_fillSpan (c := (r.memory.get64 writeAt).toNat) (t := t) hfits hpos hsize
    rw [UInt64.ofNat_toNat] at hspan
    rw [memory_fill]
    refine hspan.congr (fun j h₁ h₂ => ?_) fun j h₁ h₂ => ?_ <;>
      · rw [UInt64.ofNat_toNat] at h₁
        exact byte_set64_of_outside (by omega)
  · intro k f' hk hf'
    refine spanHolds_fill_away hg hfits ?_ hf'
    have hroom : RingMapping.readable r.memory < r.mapping.geometry.spanCount.toUInt64 :=
      of_decide_eq_true hroom
    rw [RingMapping.readable] at hk hroom
    generalize r.memory.get64 writeAt = w at hk hroom
    generalize r.memory.get64 readAt = c at hk hroom
    have hdist := toNat_sub_cursor (Nat.le_of_lt hk)
    refine index_ne_of_behind hg (fun hsame => ?_) ?_
    · rw [hsame, UInt64.sub_self, UInt64.toNat_zero] at hdist
      omega
    · rw [UInt64.lt_iff_toNat_lt] at hroom ⊢
      omega
  · intro j
    exact byte_fill hfits

end Ring
end Patchbay
