import Patchbay.Proofs.Ring.Contents

/-!
# Operations on a ring are operations on its queue

For memory that holds a queue and a mapping of that memory, each operation answers what the
queue answers, and the memory after it holds the queue after it. `Holds` leaves out where the
oldest frame is and keeps only a bound for the cursors: the number of writes so far.
-/
namespace Patchbay
open Memory RingGeometry

/-- Memory that holds a queue after at most `writes` writes. -/
def Holds (g : RingGeometry) (m : Memory) (q : FrameQueue) (writes : Nat) : Prop :=
  ∃ first, HoldsFrom g m q first ∧ first + q.frames.length ≤ writes

/-- A mapping of memory that holds a queue. One that was released closed the queue for all. -/
structure RingMapping.Of (r : RingMapping) (g : RingGeometry) (q : FrameQueue) : Prop where
  geometry : r.geometry = g
  closed : r.isClosed → q.isReleased

variable {g : RingGeometry} {m : Memory} {q : FrameQueue} {r : RingMapping} {first n : Nat}
variable {α : Type}

theorem HoldsFrom.isReleased_eq (h : HoldsFrom g m q first) (hr : r.Of g q) :
    r.isReleased m = q.isReleased := by
  have hm := h.released
  have hc := hr.closed
  unfold RingMapping.isReleased
  cases hq : q.isReleased with
  | true =>
      rw [hq] at hm
      simp [hm]
  | false =>
      rw [hq] at hm hc
      simp only [Bool.false_eq_true, iff_false, Decidable.not_not, imp_false] at hm hc
      simp [hm, hc]

theorem HoldsFrom.enter_eq (h : HoldsFrom g m q first) (hr : r.Of g q) {busyAt : Nat}
    (hb : m.get32 busyAt = 0) (op : String) (body : Unit → Except StreamError α × Memory) :
    r.enter m busyAt op body = if q.isReleased then (.error .released, m) else body () := by
  rw [RingMapping.enter, h.isReleased_eq hr, hb]
  rfl

theorem HoldsFrom.readable (h : HoldsFrom g m q first) :
    (RingMapping.readable m).toNat = q.frames.length := by
  have hc := h.counted
  have hfirst : (UInt64.ofNat first).toNat = first := toNat_cursor (by omega)
  have hend : (UInt64.ofNat (first + q.frames.length)).toNat = first + q.frames.length :=
    toNat_cursor hc
  rw [RingMapping.readable, h.writer, h.reader, UInt64.toNat_sub_of_le, hend, hfirst]
  · omega
  · rw [UInt64.le_iff_toNat_le, hend, hfirst]
    omega

theorem HoldsFrom.cursors_eq_iff (h : HoldsFrom g m q first) :
    m.get64 readAt = m.get64 writeAt ↔ q.frames = [] := by
  have hc := h.counted
  rw [← List.length_eq_zero_iff, ← h.readable, RingMapping.readable]
  constructor
  · intro heq
    rw [heq, UInt64.sub_self]
    rfl
  · intro hz
    rw [← UInt64.toNat_inj, h.reader, h.writer, toNat_cursor (by omega), toNat_cursor hc]
    have hr := h.readable
    rw [RingMapping.readable, hz] at hr
    omega

theorem RingMapping.write_eq (r : RingMapping) (m : Memory) (frame : List UInt8) (t : UInt64) :
    r.write m frame t =
      if frame.length > r.geometry.spanSize.toNat then
        (.error (.invalidParam
          s!"frame of {frame.length} bytes exceeds span size {r.geometry.spanSize}"), m)
      else r.enter m producerBusyAt "write" fun _ =>
        if RingMapping.readable m ≥ r.geometry.spanCount.toUInt64 then (.error .bufferFull, m)
        else
          (.ok (), (r.geometry.fillSpan m (m.get64 writeAt) frame t).set64 writeAt
            (m.get64 writeAt + 1)) :=
  rfl

theorem Holds.write (h : Holds g m q n) (hr : r.Of g q) (hv : g.check = .ok ())
    (hn : n + 1 < 2 ^ 64) (frame : List UInt8) (t : UInt64) :
    (r.write m frame t).1 = (q.write g frame t).1 ∧
      Holds g (r.write m frame t).2 (q.write g frame t).2 (n + 1) := by
  obtain ⟨first, h, hle⟩ := h
  have hsame : Holds g m q (n + 1) := ⟨first, h, by omega⟩
  have hfull : RingMapping.readable m ≥ g.spanCount.toUInt64 ↔
      ¬ q.frames.length < g.spanCount.toNat := by
    rw [ge_iff_le, UInt64.le_iff_toNat_le, UInt32.toNat_toUInt64, h.readable, Nat.not_lt]
  rw [RingMapping.write_eq, FrameQueue.write, hr.geometry, h.enter_eq hr h.producer]
  by_cases hlong : frame.length > g.spanSize.toNat
  · rw [if_pos hlong, if_pos hlong]
    exact ⟨rfl, hsame⟩
  rw [if_neg hlong, if_neg hlong]
  by_cases hrel : q.isReleased
  · rw [if_pos hrel, if_pos hrel]
    exact ⟨rfl, hsame⟩
  rw [if_neg hrel, if_neg hrel]
  by_cases hroom : q.frames.length < g.spanCount.toNat
  · rw [if_neg fun hc => hfull.mp hc hroom, if_pos hroom]
    have happend := h.append hv t (Nat.le_of_not_lt hlong) hroom (by omega)
    dsimp only
    refine ⟨rfl, first, happend, ?_⟩
    rw [List.length_append, List.length_singleton]
    omega
  · rw [if_pos (hfull.mpr hroom), if_neg hroom]
    exact ⟨rfl, hsame⟩

theorem HoldsFrom.extent_eq {f : QueuedFrame} {rest : List QueuedFrame}
    (h : HoldsFrom g m q first) (hq : q.frames = f :: rest) :
    RingMapping.extent g m (UInt64.ofNat first) = (f.bytes.length, q.offset) := by
  have hs := h.spans
  have hle := h.offset_le
  rw [hq] at hs hle
  have hf := hs.1.fits
  have hlt := g.spanSize.toNat_lt
  unfold RingMapping.extent
  rw [hs.1.length, h.readOffset, toNat_cursor (by omega), Nat.min_eq_left hf]
  simp only [Prod.mk.injEq, true_and]
  exact Nat.min_eq_left hle

theorem HoldsFrom.slice_eq {f : QueuedFrame} {rest : List QueuedFrame}
    (h : HoldsFrom g m q first) (hq : q.frames = f :: rest) (limit : Nat) :
    m.slice (g.dataAt (UInt64.ofNat first) + q.offset) (min limit (f.bytes.length - q.offset)) =
      (f.bytes.drop q.offset).take limit := by
  have hs := h.spans
  have hle := h.offset_le
  rw [hq] at hs hle
  rw [FrameQueue.headLength] at hle
  rw [slice_part (l := f.bytes.length) (by omega), hs.1.data, ← List.length_drop,
    ← List.take_eq_take_min]

/-- After `k` more bytes of the oldest frame were read, in terms of the queue. -/
theorem HoldsFrom.advance_eq {f : QueuedFrame} {rest : List QueuedFrame}
    (h : HoldsFrom g m q first) (hq : q.frames = f :: rest) (hg : 0 < g.spanCount.toNat)
    (seen : Nat) (hseen : seen ≤ f.bytes.length) :
    if seen < f.bytes.length then
      HoldsFrom g (RingMapping.advance m (UInt64.ofNat first) seen f.bytes.length)
        { q with offset := seen } first
    else
      HoldsFrom g (RingMapping.advance m (UInt64.ofNat first) seen f.bytes.length)
        { q with frames := rest, offset := 0 } (first + 1) := by
  unfold RingMapping.advance
  by_cases hlt : seen < f.bytes.length
  · rw [if_pos hlt, if_neg (by omega)]
    exact h.setOffset (by rw [hq]; exact hseen) hg
  · rw [if_neg hlt, if_pos (by omega)]
    have hleave := h.leave (k := 1) (by rw [hq, List.length_cons]; omega) hg
    rw [hq, UInt64.ofNat_add] at hleave
    exact hleave

theorem Holds.read (h : Holds g m q n) (hr : r.Of g q) (hg : 0 < g.spanCount.toNat)
    (limit : Nat) :
    (r.read m limit).1 = (q.read limit).1 ∧ Holds g (r.read m limit).2 (q.read limit).2 n := by
  obtain ⟨first, h, hle⟩ := h
  unfold RingMapping.read FrameQueue.read
  rw [hr.geometry, h.enter_eq hr h.consumer]
  by_cases hrel : q.isReleased
  · rw [if_pos hrel, if_pos hrel]
    exact ⟨rfl, first, h, hle⟩
  rw [if_neg hrel, if_neg hrel]
  dsimp only
  cases hq : q.frames with
  | nil =>
      rw [if_pos (h.cursors_eq_iff.mpr hq)]
      exact ⟨rfl, first, h, hle⟩
  | cons f rest =>
      have hs := h.spans
      have hoff := h.offset_le
      rw [hq] at hs hoff hle
      rw [FrameQueue.headLength] at hoff
      rw [List.length_cons] at hle
      have hne : m.get64 readAt ≠ m.get64 writeAt := fun heq => by
        rw [h.cursors_eq_iff, hq] at heq
        cases heq
      have hseen : q.offset + min limit (f.bytes.length - q.offset) =
          q.offset + ((f.bytes.drop q.offset).take limit).length := by
        rw [List.length_take, List.length_drop]
      rw [if_neg hne, h.reader, h.extent_eq hq]
      dsimp only
      rw [h.slice_eq hq, hs.1.time, hseen]
      refine ⟨rfl, ?_⟩
      have hadv := h.advance_eq hq hg _ (Nat.le_trans (Nat.le_of_eq hseen.symm) (by omega))
      split at hadv
      · rename_i hpart
        rw [hq] at hadv
        rw [if_pos hpart]
        exact ⟨first, hadv, hle⟩
      · rename_i hend
        rw [if_neg hend]
        exact ⟨first + 1, hadv, by dsimp only; omega⟩

theorem HoldsFrom.cursor_lt (h : HoldsFrom g m q first) (hq : q.frames ≠ []) :
    UInt64.ofNat first < UInt64.ofNat (first + q.frames.length) := by
  have hc := h.counted
  have hpos := List.length_pos_iff.mpr hq
  rw [UInt64.lt_iff_toNat_lt, toNat_cursor (by omega), toNat_cursor hc]
  omega

theorem HoldsFrom.gather_cons {f : QueuedFrame} {rest : List QueuedFrame}
    (h : HoldsFrom g m q first) (hq : q.frames = f :: rest) {want : Nat} (hwant : want ≠ 0) :
    let last := UInt64.ofNat (first + q.frames.length)
    let taken := min want (f.bytes.length - q.offset)
    let m' := RingMapping.advance m (UInt64.ofNat first) (q.offset + taken) f.bytes.length
    RingMapping.gather g last (UInt64.ofNat first) want m =
      if q.offset + taken ≥ f.bytes.length then
        let next := RingMapping.gather g last (UInt64.ofNat first + 1) (want - taken) m'
        ((f.bytes.drop q.offset).take want ++ next.1, some f.timestamp, next.2.2)
      else ((f.bytes.drop q.offset).take want, some f.timestamp, m') := by
  have hlt := h.cursor_lt (by simp [hq])
  have hspans := h.spans
  rw [hq] at hspans
  dsimp only
  rw [RingMapping.gather, dif_pos ⟨hwant, hlt⟩, h.extent_eq hq]
  dsimp only
  rw [h.slice_eq hq, hspans.1.time]

/-- A gathering read takes what the queue has unread, in order, and leaves what the queue keeps. -/
theorem HoldsFrom.gather (h : HoldsFrom g m q first) (hg : 0 < g.spanCount.toNat) (want : Nat) :
    ∃ m' first',
      RingMapping.gather g (UInt64.ofNat (first + q.frames.length)) (UInt64.ofNat first) want m =
        (q.unread.take want,
          (if want = 0 then none else q.frames.head?.map (·.timestamp)), m') ∧
      HoldsFrom g m' (q.skip want) first' ∧
      first' + (q.skip want).frames.length = first + q.frames.length := by
  obtain ⟨fs, offset, b⟩ := q
  -- The frames that are used up leave the queue one by one, each with its own span.
  induction fs generalizing offset m first want with
  | nil =>
      have hoffset : offset = 0 := Nat.le_zero.mp h.offset_le
      subst hoffset
      rw [FrameQueue.skip_nil]
      refine ⟨m, first, ?_, h, rfl⟩
      rw [RingMapping.gather, dif_neg (by simp)]
      simp [FrameQueue.unread]
  | cons f rest ih =>
      by_cases hwant : want = 0
      · subst hwant
        rw [FrameQueue.skip_zero _ h.offset_le]
        refine ⟨m, first, ?_, h, rfl⟩
        rw [RingMapping.gather, dif_neg (by simp)]
        simp
      · have hoffset : offset ≤ f.bytes.length := h.offset_le
        have hadvance := h.advance_eq rfl hg (offset + min want (f.bytes.length - offset))
          (by omega)
        rw [h.gather_cons rfl hwant, if_neg hwant, FrameQueue.unread_cons f rest b hoffset]
        dsimp only at hadvance ⊢
        by_cases hpart : offset + want < f.bytes.length
        · -- The destination is full before the oldest frame is used up.
          have hmin : min want (f.bytes.length - offset) = want := by omega
          have hlen : want ≤ (f.bytes.drop offset).length := by
            rw [List.length_drop]
            omega
          rw [hmin, if_pos hpart] at hadvance
          rw [hmin, if_neg (by omega), FrameQueue.skip_of_lt hwant hpart]
          refine ⟨_, first, ?_, hadvance, rfl⟩
          rw [List.take_append_of_le_length hlen]
          rfl
        · -- The oldest frame is used up, and the others fill the rest of the destination.
          have hall : f.bytes.length ≤ offset + want := Nat.le_of_not_lt hpart
          have hmin : min want (f.bytes.length - offset) = f.bytes.length - offset := by omega
          have hcursor : first + (rest.length + 1) = first + 1 + rest.length := by omega
          rw [hmin, if_neg (by omega)] at hadvance
          rw [hmin, if_pos (by omega), FrameQueue.skip_of_le hwant hall]
          obtain ⟨m', first', hgot, hholds, hcount⟩ :=
            ih (want - (f.bytes.length - offset)) 0 hadvance
          refine ⟨m', first', ?_, hholds, ?_⟩
          · rw [List.length_cons, hcursor, ← UInt64.ofNat_one, ← UInt64.ofNat_add, hgot,
              List.take_append, List.length_drop]
            rfl
          · rw [hcount, List.length_cons, hcursor]

theorem Holds.readInto (h : Holds g m q n) (hr : r.Of g q) (hg : 0 < g.spanCount.toNat)
    (want : Nat) :
    (r.readInto m want).1 = (q.readInto want).1 ∧
      Holds g (r.readInto m want).2 (q.readInto want).2 n := by
  obtain ⟨first, h, hle⟩ := h
  unfold RingMapping.readInto FrameQueue.readInto
  rw [hr.geometry, h.enter_eq hr h.consumer]
  by_cases hrel : q.isReleased
  · rw [if_pos hrel, if_pos hrel]
    exact ⟨rfl, first, h, hle⟩
  rw [if_neg hrel, if_neg hrel, h.reader, h.writer]
  obtain ⟨m', first', hgot, hholds, hcount⟩ := h.gather hg want
  rw [hgot]
  exact ⟨rfl, first', hholds, hcount ▸ hle⟩

theorem Holds.flush (h : Holds g m q n) (hr : r.Of g q) (hg : 0 < g.spanCount.toNat) :
    (r.flush m).1 = q.flush.1 ∧ Holds g (r.flush m).2 q.flush.2 n := by
  obtain ⟨first, h, hle⟩ := h
  unfold RingMapping.flush FrameQueue.flush
  rw [h.enter_eq hr h.consumer]
  by_cases hrel : q.isReleased
  · rw [if_pos hrel, if_pos hrel]
    exact ⟨rfl, first, h, hle⟩
  rw [if_neg hrel, if_neg hrel]
  have hall := h.leave (Nat.le_refl q.frames.length) hg
  rw [List.drop_length, ← h.writer] at hall
  dsimp only
  exact ⟨rfl, _, hall, hle⟩

theorem Holds.release (h : Holds g m q n) (hr : r.Of g q) (hg : 0 < g.spanCount.toNat) :
    Holds g (r.release m).2 q.release n := by
  obtain ⟨first, h, hle⟩ := h
  unfold RingMapping.release
  by_cases hc : r.isClosed
  · have hq : q.release = q := by
      rw [FrameQueue.release, ← hr.closed hc]
    rw [if_pos hc, hq]
    exact ⟨first, h, hle⟩
  · rw [if_neg hc]
    exact ⟨first, h.close hg, hle⟩

end Patchbay
