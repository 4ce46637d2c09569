import Patchbay.Proofs.Ring.FrameQueue
import Patchbay.Proofs.Ring.Words

/-!
# The queue that a ring holds

`HoldsFrom g m q first` says that the memory `m` is that of a ring of geometry `g` that holds the
frames of the queue `q`, the oldest in the span of cursor `first`. Every operation of a mapping
answers what the queue answers and leaves memory that holds the queue after it. Cursors are
natural numbers here; that they fit into 64 bits is part of what is held.
-/
namespace Patchbay
open Memory RingGeometry

/-- The span of `cursor` holds the frame `f`. -/
structure SpanHolds (g : RingGeometry) (m : Memory) (cursor : Nat) (f : QueuedFrame) : Prop where
  fits : f.bytes.length ≤ g.spanSize.toNat
  length : m.get64 (g.metaAt (UInt64.ofNat cursor)) = UInt64.ofNat f.bytes.length
  time : m.get64 (g.metaAt (UInt64.ofNat cursor) + 8) = f.timestamp
  data : m.slice (g.dataAt (UInt64.ofNat cursor)) f.bytes.length = f.bytes

/-- The spans from `cursor` on hold the given frames in order. -/
def SpansHold (g : RingGeometry) (m : Memory) : Nat → List QueuedFrame → Prop
  | _, [] => True
  | cursor, f :: rest => SpanHolds g m cursor f ∧ SpansHold g m (cursor + 1) rest

structure HoldsFrom (g : RingGeometry) (m : Memory) (q : FrameQueue) (first : Nat) : Prop where
  size : m.size = g.mappedBytes
  magic : m.get64 magicAt = magic
  spanCount : m.get32 spanCountAt = g.spanCount
  spanSize : m.get32 spanSizeAt = g.spanSize
  released : m.get32 releasedAt ≠ 0 ↔ q.isReleased
  producer : m.get32 producerBusyAt = 0
  consumer : m.get32 consumerBusyAt = 0
  reader : m.get64 readAt = UInt64.ofNat first
  writer : m.get64 writeAt = UInt64.ofNat (first + q.frames.length)
  offset : m.get64 readOffsetAt = UInt64.ofNat q.offset
  offset_le : q.offset ≤ FrameQueue.headLength q.frames
  room : q.frames.length ≤ g.spanCount.toNat
  counted : first + q.frames.length < 2 ^ 64
  spans : SpansHold g m first q.frames

variable {g : RingGeometry} {m m' : Memory} {q : FrameQueue} {first : Nat}

theorem SpanHolds.congr {c : Nat} {f : QueuedFrame} (h : SpanHolds g m c f)
    (hn : ∀ j, g.metaAt (UInt64.ofNat c) ≤ j → j < g.metaAt (UInt64.ofNat c) + metaBytes →
      m'.byte j = m.byte j)
    (hd : ∀ j, g.dataAt (UInt64.ofNat c) ≤ j →
      j < g.dataAt (UInt64.ofNat c) + g.spanSize.toNat → m'.byte j = m.byte j) :
    SpanHolds g m' c f := by
  have hb : metaBytes = 16 := rfl
  have hf := h.fits
  refine ⟨h.fits, ?_, ?_, ?_⟩
  · rw [get64_congr fun j h₁ h₂ => hn j h₁ (by omega)]
    exact h.length
  · rw [get64_congr fun j h₁ h₂ => hn j (by omega) (by omega)]
    exact h.time
  · rw [slice_congr fun j h₁ h₂ => hd j h₁ (by omega)]
    exact h.data

/-- Spans keep their frames as long as the memory behind the header stays as it is. -/
theorem SpansHold.congr {c : Nat} {fs : List QueuedFrame} (h : SpansHold g m c fs)
    (hg : 0 < g.spanCount.toNat) (hm : ∀ j, headerBytes ≤ j → m'.byte j = m.byte j) :
    SpansHold g m' c fs := by
  induction fs generalizing c with
  | nil => trivial
  | cons f rest ih =>
      have hn := headerBytes_le_metaAt (g := g) (UInt64.ofNat c)
      have hd := metaAt_add_le_dataAt hg (UInt64.ofNat c) (UInt64.ofNat c)
      exact ⟨h.1.congr (fun j hj _ => hm j (by omega)) (fun j hj _ => hm j (by omega)), ih h.2⟩

/-- Spans keep their frames when only a span outside of their turn is written. -/
theorem SpansHold.congr_away {c w : Nat} {fs : List QueuedFrame} (h : SpansHold g m c fs)
    (hv : g.check = .ok ()) (hw : w < 2 ^ 64) (hend : c + fs.length ≤ w)
    (hturn : w < c + g.spanCount.toNat)
    (hn : ∀ j, headerBytes ≤ j →
      (j < g.metaAt (UInt64.ofNat w) ∨ g.metaAt (UInt64.ofNat w) + metaBytes ≤ j) →
      (j < g.dataAt (UInt64.ofNat w) ∨ g.dataAt (UInt64.ofNat w) + g.spanSize.toNat ≤ j) →
      m'.byte j = m.byte j) :
    SpansHold g m' c fs := by
  induction fs generalizing c with
  | nil => trivial
  | cons f rest ih =>
      rw [List.length_cons] at hend
      -- The span of `c` is behind that of `w` by less than a turn, so they share no byte.
      have hg := spanCount_pos hv
      have hne := index_ne (a := c) (b := w) hv (by omega) hw (by omega) hturn
      have hm := metaAt_disjoint hne
      have hd := dataAt_disjoint hne
      have hlow := headerBytes_le_metaAt (g := g) (UInt64.ofNat c)
      have hcw := metaAt_add_le_dataAt hg (UInt64.ofNat c) (UInt64.ofNat w)
      have hwc := metaAt_add_le_dataAt hg (UInt64.ofNat w) (UInt64.ofNat c)
      have hcc := metaAt_add_le_dataAt hg (UInt64.ofNat c) (UInt64.ofNat c)
      refine ⟨h.1.congr ?_ ?_, ih h.2 (by omega) (by omega)⟩
      · intro j h₁ h₂
        exact hn j (by omega) (by omega) (by omega)
      · intro j h₁ h₂
        exact hn j (by omega) (by omega) (by omega)

theorem SpansHold.append {c : Nat} {fs : List QueuedFrame} {f : QueuedFrame}
    (h : SpansHold g m c fs) (hf : SpanHolds g m (c + fs.length) f) :
    SpansHold g m c (fs ++ [f]) := by
  induction fs generalizing c with
  | nil => exact ⟨hf, trivial⟩
  | cons e rest ih =>
      refine ⟨h.1, ih h.2 ?_⟩
      rwa [List.length_cons, Nat.add_comm rest.length, ← Nat.add_assoc] at hf

theorem SpansHold.drop {c : Nat} {fs : List QueuedFrame} (h : SpansHold g m c fs) (k : Nat)
    (hk : k ≤ fs.length) : SpansHold g m (c + k) (fs.drop k) := by
  induction k generalizing c fs with
  | zero => exact h
  | succ k ih =>
      cases fs with
      | nil => exact absurd hk (Nat.not_succ_le_zero k)
      | cons f rest =>
          rw [← Nat.add_assoc, Nat.add_right_comm]
          exact ih h.2 (Nat.le_of_succ_le_succ hk)

theorem headerBytes_le_mappedBytes (g : RingGeometry) : headerBytes ≤ g.mappedBytes :=
  Nat.le_add_right _ _

theorem HoldsFrom.readOffset (h : HoldsFrom g m q first) :
    (m.get64 readOffsetAt).toNat = q.offset := by
  have hle := h.offset_le
  have hlt : q.offset < 2 ^ 64 := by
    have hs := g.spanSize.toNat_lt
    have hspans := h.spans
    cases hq : q.frames with
    | nil =>
        rw [hq, FrameQueue.headLength] at hle
        omega
    | cons f rest =>
        rw [hq] at hspans hle
        have hf := hspans.1.fits
        rw [FrameQueue.headLength] at hle
        omega
  rw [h.offset, toNat_cursor hlt]

/-- The words of the cursors lie between those that say which ring it is and the flags. -/
theorem byte_setCursor {i j : Nat} {w : UInt64} (hlow : writeAt ≤ i) (hhigh : i + 8 ≤ releasedAt)
    (hj : j < writeAt ∨ releasedAt ≤ j) : (m.set64 i w).byte j = m.byte j := by
  rcases hj with hj | hj
  · exact byte_set64_of_outside (Or.inl (Nat.lt_of_lt_of_le hj hlow))
  · exact byte_set64_of_outside (Or.inr (Nat.le_trans hhigh hj))

/-- As long as nothing else in the header is written, what is held is up to the cursors and the
spans. -/
theorem HoldsFrom.of_cursors (h : HoldsFrom g m q first) {q' : FrameQueue} {first' : Nat}
    (hsize : m'.size = m.size)
    (hbyte : ∀ j, j < writeAt ∨ releasedAt ≤ j → j < headerBytes → m'.byte j = m.byte j)
    (hreleased : q'.isReleased = q.isReleased)
    (hreader : m'.get64 readAt = UInt64.ofNat first')
    (hwriter : m'.get64 writeAt = UInt64.ofNat (first' + q'.frames.length))
    (hoffset : m'.get64 readOffsetAt = UInt64.ofNat q'.offset)
    (hle : q'.offset ≤ FrameQueue.headLength q'.frames)
    (hroom : q'.frames.length ≤ g.spanCount.toNat)
    (hcounted : first' + q'.frames.length < 2 ^ 64) (hspans : SpansHold g m' first' q'.frames) :
    HoldsFrom g m' q' first' := by
  have hmagic : m'.get64 magicAt = m.get64 magicAt :=
    get64_congr fun j _ hj => hbyte j (Or.inl (Nat.lt_trans hj (by decide)))
      (Nat.lt_trans hj (by decide))
  have hgeometry : ∀ i, i + 4 ≤ writeAt → m'.get32 i = m.get32 i := fun i hi =>
    get32_congr fun j _ hj => hbyte j (Or.inl (Nat.lt_of_lt_of_le hj hi))
      (Nat.lt_trans (Nat.lt_of_lt_of_le hj hi) (by decide))
  have hflag : ∀ i, releasedAt ≤ i → i + 4 ≤ headerBytes → m'.get32 i = m.get32 i :=
    fun i hi hend => get32_congr fun j hij hj =>
      hbyte j (Or.inr (Nat.le_trans hi hij)) (Nat.lt_of_lt_of_le hj hend)
  exact {
    size := hsize.trans h.size
    magic := hmagic.trans h.magic
    spanCount := (hgeometry _ (by decide)).trans h.spanCount
    spanSize := (hgeometry _ (by decide)).trans h.spanSize
    released := by rw [hflag _ (by decide) (by decide), hreleased]; exact h.released
    producer := (hflag _ (by decide) (by decide)).trans h.producer
    consumer := (hflag _ (by decide) (by decide)).trans h.consumer
    reader := hreader
    writer := hwriter
    offset := hoffset
    offset_le := hle
    room := hroom
    counted := hcounted
    spans := hspans }

theorem HoldsFrom.setOffset (h : HoldsFrom g m q first) {n : Nat}
    (hn : n ≤ FrameQueue.headLength q.frames) (hg : 0 < g.spanCount.toNat) :
    HoldsFrom g (m.set64 readOffsetAt (UInt64.ofNat n)) { q with offset := n } first := by
  have hsize : readOffsetAt + 8 ≤ m.size := by
    rw [h.size]
    exact Nat.le_trans (by decide) (headerBytes_le_mappedBytes g)
  generalize hm' : m.set64 readOffsetAt (UInt64.ofNat n) = m'
  have hbyte : ∀ j, j < writeAt ∨ releasedAt ≤ j → m'.byte j = m.byte j := by
    intro j hj
    rw [← hm', byte_setCursor (by decide) (by decide) hj]
  have hreader : m'.get64 readAt = UInt64.ofNat first := by
    rw [← hm', get64_set64_of_disjoint (by decide), h.reader]
  have hwriter : m'.get64 writeAt = UInt64.ofNat (first + q.frames.length) := by
    rw [← hm', get64_set64_of_disjoint (by decide), h.writer]
  have hoffset : m'.get64 readOffsetAt = UInt64.ofNat n := by
    rw [← hm', get64_set64_self hsize]
  refine h.of_cursors ?_ (fun j hj _ => hbyte j hj) rfl hreader hwriter hoffset hn h.room
    h.counted ?_
  · rw [← hm', size_set64]
  · exact h.spans.congr hg fun j hj => hbyte j (Or.inr (Nat.le_trans (by decide) hj))

theorem HoldsFrom.leave (h : HoldsFrom g m q first) {k : Nat} (hk : k ≤ q.frames.length)
    (hg : 0 < g.spanCount.toNat) :
    HoldsFrom g ((m.set64 readOffsetAt 0).set64 readAt (UInt64.ofNat (first + k)))
      { q with frames := q.frames.drop k, offset := 0 } (first + k) := by
  have h₀ : HoldsFrom g (m.set64 readOffsetAt 0) { q with offset := 0 } first :=
    h.setOffset (Nat.zero_le _) hg
  generalize m.set64 readOffsetAt 0 = m₀ at h₀ ⊢
  have hsize : readAt + 8 ≤ m₀.size := by
    rw [h₀.size]
    exact Nat.le_trans (by decide) (headerBytes_le_mappedBytes g)
  have hlen : first + k + (q.frames.drop k).length = first + q.frames.length := by
    rw [List.length_drop]
    omega
  generalize hm' : m₀.set64 readAt (UInt64.ofNat (first + k)) = m'
  have hbyte : ∀ j, j < writeAt ∨ releasedAt ≤ j → m'.byte j = m₀.byte j := by
    intro j hj
    rw [← hm', byte_setCursor (by decide) (by decide) hj]
  have hreader : m'.get64 readAt = UInt64.ofNat (first + k) := by
    rw [← hm', get64_set64_self hsize]
  have hwriter : m'.get64 writeAt = UInt64.ofNat (first + k + (q.frames.drop k).length) := by
    rw [← hm', get64_set64_of_disjoint (by decide), h₀.writer, hlen]
  have hoffset : m'.get64 readOffsetAt = UInt64.ofNat 0 := by
    rw [← hm', get64_set64_of_disjoint (by decide), h₀.offset]
  have hroom : (q.frames.drop k).length ≤ g.spanCount.toNat := by
    rw [List.length_drop]
    exact Nat.le_trans (Nat.sub_le _ _) h.room
  refine h₀.of_cursors ?_ (fun j hj _ => hbyte j hj) rfl hreader hwriter hoffset (Nat.zero_le _)
    hroom ?_ ?_
  · rw [← hm', size_set64]
  · rw [hlen]
    exact h.counted
  · exact (h₀.spans.drop k hk).congr hg fun j hj =>
      hbyte j (Or.inr (Nat.le_trans (by decide) hj))

theorem HoldsFrom.close (h : HoldsFrom g m q first) (hg : 0 < g.spanCount.toNat) :
    HoldsFrom g (m.set32 releasedAt 1) q.release first := by
  have hsize : releasedAt + 4 ≤ m.size := by
    rw [h.size]
    exact Nat.le_trans (by decide) (headerBytes_le_mappedBytes g)
  exact {
    size := (size_set32 ..).trans h.size
    magic := (get64_set32_of_disjoint (by decide)).trans h.magic
    spanCount := (get32_set32_of_disjoint (by decide)).trans h.spanCount
    spanSize := (get32_set32_of_disjoint (by decide)).trans h.spanSize
    released := by simp [get32_set32_self hsize, FrameQueue.release]
    producer := (get32_set32_of_disjoint (by decide)).trans h.producer
    consumer := (get32_set32_of_disjoint (by decide)).trans h.consumer
    reader := (get64_set32_of_disjoint (by decide)).trans h.reader
    writer := (get64_set32_of_disjoint (by decide)).trans h.writer
    offset := (get64_set32_of_disjoint (by decide)).trans h.offset
    offset_le := h.offset_le
    room := h.room
    counted := h.counted
    spans := h.spans.congr hg fun j hj =>
      byte_set32_of_outside (Or.inr (Nat.le_trans (by decide) hj)) }

/-- The memory after a frame was put into the span of cursor `w`. -/
def RingGeometry.fillSpan (g : RingGeometry) (m : Memory) (w : UInt64) (frame : List UInt8)
    (timestamp : UInt64) : Memory :=
  ((m.blit (g.dataAt w) frame).set64 (g.metaAt w) (UInt64.ofNat frame.length)).set64
    (g.metaAt w + 8) timestamp

theorem byte_fillSpan {w : UInt64} {frame : List UInt8} {t : UInt64}
    (hf : frame.length ≤ g.spanSize.toNat) {j : Nat}
    (hn : j < g.metaAt w ∨ g.metaAt w + metaBytes ≤ j)
    (hd : j < g.dataAt w ∨ g.dataAt w + g.spanSize.toNat ≤ j) :
    (g.fillSpan m w frame t).byte j = m.byte j := by
  have hb : metaBytes = 16 := rfl
  rw [fillSpan, byte_set64_of_outside (by omega), byte_set64_of_outside (by omega),
    byte_blit_of_outside (by omega)]

theorem spanHolds_fillSpan {c : Nat} {frame : List UInt8} {t : UInt64}
    (hf : frame.length ≤ g.spanSize.toNat) (hg : 0 < g.spanCount.toNat)
    (hsize : m.size = g.mappedBytes) :
    SpanHolds g (g.fillSpan m (UInt64.ofNat c) frame t) c ⟨frame, t⟩ := by
  have hb : metaBytes = 16 := rfl
  have hmd := metaAt_add_le_dataAt hg (UInt64.ofNat c) (UInt64.ofNat c)
  have hend := dataAt_add_le_mappedBytes hg (UInt64.ofNat c)
  refine ⟨hf, ?_, ?_, ?_⟩
  · rw [fillSpan, get64_set64_of_disjoint (by omega), get64_set64_self]
    rw [size_blit]
    omega
  · rw [fillSpan, get64_set64_self]
    rw [size_set64, size_blit]
    omega
  · have hblit : (m.blit (g.dataAt (UInt64.ofNat c)) frame).slice (g.dataAt (UInt64.ofNat c))
        frame.length = frame := slice_blit_self (by omega)
    refine Eq.trans (slice_congr fun j h₁ _ => ?_) hblit
    rw [fillSpan, byte_set64_of_outside (by omega), byte_set64_of_outside (by omega)]

theorem HoldsFrom.fill (h : HoldsFrom g m q first) (hv : g.check = .ok ()) {frame : List UInt8}
    (t : UInt64) (hf : frame.length ≤ g.spanSize.toNat)
    (hroom : q.frames.length < g.spanCount.toNat) :
    HoldsFrom g (g.fillSpan m (UInt64.ofNat (first + q.frames.length)) frame t) q first := by
  have hg := spanCount_pos hv
  have hcounted := h.counted
  have hspans := h.spans
  generalize hw : UInt64.ofNat (first + q.frames.length) = w
  have hlow := headerBytes_le_metaAt (g := g) w
  have hmd := metaAt_add_le_dataAt hg w w
  have hsize : (g.fillSpan m w frame t).size = m.size := by
    rw [fillSpan, size_set64, size_set64, size_blit]
  have hhead : ∀ j, j < headerBytes → (g.fillSpan m w frame t).byte j = m.byte j := fun j hj =>
    byte_fillSpan hf (by omega) (by omega)
  have h64 : ∀ i, i + 8 ≤ headerBytes → (g.fillSpan m w frame t).get64 i = m.get64 i :=
    fun i hi => get64_congr fun j _ _ => hhead j (by omega)
  have hkept : SpansHold g (g.fillSpan m w frame t) first q.frames := by
    refine hspans.congr_away hv hcounted (Nat.le_refl _) (by omega) ?_
    rw [hw]
    exact fun j _ hn hd => byte_fillSpan hf hn hd
  exact h.of_cursors hsize (fun j _ hj => hhead j hj) rfl
    ((h64 _ (by decide)).trans h.reader) ((h64 _ (by decide)).trans h.writer)
    ((h64 _ (by decide)).trans h.offset) h.offset_le h.room hcounted hkept

/-- The frame in the span after the last becomes part of the queue with the write cursor. -/
theorem HoldsFrom.publish (h : HoldsFrom g m q first) (hg : 0 < g.spanCount.toNat)
    {f : QueuedFrame} (hf : SpanHolds g m (first + q.frames.length) f)
    (hroom : q.frames.length < g.spanCount.toNat) (hnext : first + q.frames.length + 1 < 2 ^ 64) :
    HoldsFrom g (m.set64 writeAt (UInt64.ofNat (first + q.frames.length) + 1))
      { q with frames := q.frames ++ [f] } first := by
  have hsize : writeAt + 8 ≤ m.size := by
    rw [h.size]
    exact Nat.le_trans (by decide) (headerBytes_le_mappedBytes g)
  have hlen : first + (q.frames ++ [f]).length = first + q.frames.length + 1 := by
    rw [List.length_append, ← Nat.add_assoc]
    rfl
  have hnext' : UInt64.ofNat (first + q.frames.length) + 1 =
      UInt64.ofNat (first + (q.frames ++ [f]).length) := by
    rw [hlen]
    exact (UInt64.ofNat_add _ 1).symm
  have hroom' : (q.frames ++ [f]).length ≤ g.spanCount.toNat := by
    rw [List.length_append]
    exact hroom
  have hspans : SpansHold g m first (q.frames ++ [f]) := h.spans.append hf
  rw [hnext']
  generalize hm' : m.set64 writeAt (UInt64.ofNat (first + (q.frames ++ [f]).length)) = m'
  have hbyte : ∀ j, j < writeAt ∨ releasedAt ≤ j → m'.byte j = m.byte j := by
    intro j hj
    rw [← hm', byte_setCursor (by decide) (by decide) hj]
  have hreader : m'.get64 readAt = UInt64.ofNat first := by
    rw [← hm', get64_set64_of_disjoint (by decide), h.reader]
  have hwriter : m'.get64 writeAt = UInt64.ofNat (first + (q.frames ++ [f]).length) := by
    rw [← hm', get64_set64_self hsize]
  have hoffset : m'.get64 readOffsetAt = UInt64.ofNat q.offset := by
    rw [← hm', get64_set64_of_disjoint (by decide), h.offset]
  refine h.of_cursors ?_ (fun j hj _ => hbyte j hj) rfl hreader hwriter hoffset
    (Nat.le_trans h.offset_le (FrameQueue.headLength_le_append _ _)) hroom' ?_ ?_
  · rw [← hm', size_set64]
  · rw [hlen]
    exact hnext
  · exact hspans.congr hg fun j hj => hbyte j (Or.inr (Nat.le_trans (by decide) hj))

theorem HoldsFrom.append (h : HoldsFrom g m q first) (hv : g.check = .ok ())
    {frame : List UInt8} (t : UInt64) (hf : frame.length ≤ g.spanSize.toNat)
    (hroom : q.frames.length < g.spanCount.toNat) (hnext : first + q.frames.length + 1 < 2 ^ 64) :
    HoldsFrom g ((g.fillSpan m (m.get64 writeAt) frame t).set64 writeAt (m.get64 writeAt + 1))
      { q with frames := q.frames ++ [⟨frame, t⟩] } first := by
  have hg := spanCount_pos hv
  rw [h.writer]
  exact (h.fill hv t hf hroom).publish hg (spanHolds_fillSpan hf hg h.size) hroom hnext

end Patchbay
