import Patchbay.Proofs.Ring.Additions

/-!
# What a ring has unread

The bytes that a reader can still get, read off the memory: those of the spans between the cursors
without what was read of the oldest. A write puts its frame behind them, a read takes from their
front what it answers, a flush drops them, and whatever is refused leaves them alone. Nothing here
supposes that the cursors fit into 64 bits. When the write cursor comes round before the read
cursor does, a read over several spans finds nothing until a flush, but nothing is lost.
-/
namespace Patchbay
open Memory RingGeometry

namespace RingGeometry

/-- The valid bytes of a span. -/
def spanBytes (g : RingGeometry) (m : Memory) (cursor : UInt64) : List UInt8 :=
  m.slice (g.dataAt cursor) (min (m.get64 (g.metaAt cursor)).toNat g.spanSize.toNat)

/-- The valid bytes of the spans from `cursor` on. -/
def spansBytes (g : RingGeometry) (m : Memory) (cursor : UInt64) : (spans : Nat) → List UInt8
  | 0 => []
  | n + 1 => g.spanBytes m cursor ++ g.spansBytes m (cursor + 1) n

/-- The bytes between the cursors that were not read yet. -/
def unread (g : RingGeometry) (m : Memory) : List UInt8 :=
  (g.spansBytes m (m.get64 readAt) (RingMapping.readable m).toNat).drop
    (m.get64 readOffsetAt).toNat

/-- Memory of a ring in which no more of the oldest span counts as read than it has. -/
structure Orderly (g : RingGeometry) (m : Memory) : Prop where
  check : g.check = .ok ()
  size : m.size = g.mappedBytes
  /-- Without unread spans there is no oldest one. -/
  empty : RingMapping.readable m = 0 → m.get64 readOffsetAt = 0
  within : (m.get64 readOffsetAt).toNat ≤ (g.spanBytes m (m.get64 readAt)).length

variable {g : RingGeometry} {m m' : Memory} {c w : UInt64} {n : Nat}

theorem length_spanBytes :
    (g.spanBytes m c).length = min (m.get64 (g.metaAt c)).toNat g.spanSize.toNat := by
  rw [spanBytes, length_slice]

theorem spanBytes_congr
    (hn : ∀ j, g.metaAt c ≤ j → j < g.metaAt c + metaBytes → m'.byte j = m.byte j)
    (hd : ∀ j, g.dataAt c ≤ j → j < g.dataAt c + g.spanSize.toNat → m'.byte j = m.byte j) :
    g.spanBytes m' c = g.spanBytes m c := by
  have hb : metaBytes = 16 := rfl
  unfold spanBytes
  rw [get64_congr fun j h₁ h₂ => hn j h₁ (by omega)]
  exact slice_congr fun j h₁ h₂ => hd j h₁ (by omega)

/-- Spans keep their bytes as long as the memory behind the header stays as it is. -/
theorem spansBytes_congr (hg : 0 < g.spanCount.toNat)
    (hm : ∀ j, headerBytes ≤ j → m'.byte j = m.byte j) (c : UInt64) (n : Nat) :
    g.spansBytes m' c n = g.spansBytes m c n := by
  induction n generalizing c with
  | zero => rfl
  | succ n ih =>
      have hn := headerBytes_le_metaAt (g := g) c
      have hd := metaAt_add_le_dataAt hg c c
      have hfirst : g.spanBytes m' c = g.spanBytes m c :=
        spanBytes_congr (fun j hj _ => hm j (by omega)) fun j hj _ => hm j (by omega)
      rw [spansBytes, spansBytes, hfirst, ih]

theorem spanBytes_of_spanHolds {first : Nat} {f : QueuedFrame} (h : SpanHolds g m first f) :
    g.spanBytes m (UInt64.ofNat first) = f.bytes := by
  have hf := h.fits
  have hlt := g.spanSize.toNat_lt
  rw [spanBytes, h.length, toNat_cursor (by omega), Nat.min_eq_left hf]
  exact h.data

theorem spansBytes_of_spansHold {first : Nat} {fs : List QueuedFrame}
    (h : SpansHold g m first fs) :
    g.spansBytes m (UInt64.ofNat first) fs.length = fs.flatMap (·.bytes) := by
  induction fs generalizing first with
  | nil => rfl
  | cons f rest ih =>
      have hrest := ih h.2
      rw [UInt64.ofNat_add] at hrest
      rw [List.length_cons, spansBytes, List.flatMap_cons, spanBytes_of_spanHolds h.1]
      exact congrArg _ hrest

/-- The unread bytes of memory that holds a queue are those of the queue. -/
theorem unread_of_holdsFrom {q : FrameQueue} {first : Nat} (h : HoldsFrom g m q first) :
    g.unread m = q.unread := by
  rw [unread, h.readable, h.readOffset, h.reader, spansBytes_of_spansHold h.spans]
  rfl

/-- What was read of the oldest span is no more than there is in all unread spans. -/
theorem Orderly.offset_le (h : g.Orderly m) :
    (m.get64 readOffsetAt).toNat ≤
      (g.spansBytes m (m.get64 readAt) (RingMapping.readable m).toNat).length := by
  have hwithin := h.within
  cases hn : (RingMapping.readable m).toNat with
  | zero =>
      rw [h.empty (UInt64.toNat_inj.mp hn)]
      exact Nat.zero_le _
  | succ n =>
      rw [spansBytes, List.length_append]
      omega

/-- Only the read cursor and its offset into the oldest span were set. -/
structure Moves (m m' : Memory) (reader offset : UInt64) : Prop where
  size : m'.size = m.size
  spans : ∀ j, headerBytes ≤ j → m'.byte j = m.byte j
  writer : m'.get64 writeAt = m.get64 writeAt
  reader : m'.get64 readAt = reader
  offset : m'.get64 readOffsetAt = offset

theorem Orderly.headerBytes_le (h : g.Orderly m) : headerBytes ≤ m.size := by
  rw [h.size]
  exact headerBytes_le_mappedBytes g

theorem Orderly.moves_offset (h : g.Orderly m) (offset : UInt64) :
    Moves m (m.set64 readOffsetAt offset) (m.get64 readAt) offset where
  size := size_set64 ..
  spans j hj := byte_set64_of_outside (Or.inr (Nat.le_trans (by decide) hj))
  writer := get64_set64_of_disjoint (by decide)
  reader := get64_set64_of_disjoint (by decide)
  offset := get64_set64_self (Nat.le_trans (by decide) h.headerBytes_le)

theorem Orderly.moves_reader (h : g.Orderly m) (c : UInt64) :
    Moves m ((m.set64 readOffsetAt 0).set64 readAt c) c 0 := by
  have hmoves := h.moves_offset 0
  have hsize : readAt + 8 ≤ (m.set64 readOffsetAt 0).size := by
    rw [hmoves.size]
    exact Nat.le_trans (by decide) h.headerBytes_le
  refine ⟨?_, fun j hj => ?_, ?_, get64_set64_self hsize, ?_⟩
  · rw [size_set64, hmoves.size]
  · rw [byte_set64_of_outside (Or.inr (Nat.le_trans (by decide) hj)), hmoves.spans j hj]
  · rw [get64_set64_of_disjoint (by decide), hmoves.writer]
  · rw [get64_set64_of_disjoint (by decide), hmoves.offset]

variable {reader offset : UInt64}

theorem Moves.unread (h : Moves m m' reader offset) (hg : 0 < g.spanCount.toNat) :
    g.unread m' = (g.spansBytes m reader (m.get64 writeAt - reader).toNat).drop offset.toNat := by
  rw [RingGeometry.unread, RingMapping.readable, h.reader, h.writer, h.offset,
    spansBytes_congr hg h.spans]

theorem Moves.orderly (h : Moves m m' reader offset) (hm : g.Orderly m)
    (hempty : m.get64 writeAt - reader = 0 → offset = 0)
    (hwithin : offset.toNat ≤ (g.spanBytes m reader).length) : g.Orderly m' := by
  have hsame : g.spanBytes m' reader = g.spanBytes m reader := by
    have hspan := spansBytes_congr (spanCount_pos hm.check) h.spans reader 1
    rwa [spansBytes, spansBytes, spansBytes, spansBytes, List.append_nil,
      List.append_nil] at hspan
  constructor
  · exact hm.check
  · rw [h.size, hm.size]
  · rw [RingMapping.readable, h.reader, h.writer, h.offset]
    exact hempty
  · rw [h.reader, h.offset, hsame]
    exact hwithin

theorem Orderly.leave (h : g.Orderly m) (c : UInt64) :
    g.Orderly ((m.set64 readOffsetAt 0).set64 readAt c) ∧
      g.unread ((m.set64 readOffsetAt 0).set64 readAt c) =
        g.spansBytes m c (m.get64 writeAt - c).toNat := by
  have hmoves := h.moves_reader c
  have hunread := hmoves.unread (spanCount_pos h.check)
  rw [UInt64.toNat_zero, List.drop_zero] at hunread
  exact ⟨hmoves.orderly h (fun _ => rfl) (Nat.zero_le _), hunread⟩

theorem Orderly.stay (h : g.Orderly m) (hlevel : RingMapping.readable m ≠ 0) (want : Nat)
    (hpart : (m.get64 readOffsetAt).toNat + want < (g.spanBytes m (m.get64 readAt)).length) :
    let m' := m.set64 readOffsetAt (UInt64.ofNat ((m.get64 readOffsetAt).toNat + want))
    g.Orderly m' ∧ g.unread m' = (g.unread m).drop want := by
  have hcursor : (UInt64.ofNat ((m.get64 readOffsetAt).toNat + want)).toNat =
      (m.get64 readOffsetAt).toNat + want := by
    have hspan := g.spanSize.toNat_lt
    rw [length_spanBytes] at hpart
    exact toNat_cursor (by omega)
  have hmoves := h.moves_offset (UInt64.ofNat ((m.get64 readOffsetAt).toNat + want))
  refine ⟨hmoves.orderly h (fun hmet => absurd hmet hlevel) ?_, ?_⟩
  · rw [hcursor]
    exact Nat.le_of_lt hpart
  · rw [hmoves.unread (spanCount_pos h.check), hcursor, RingGeometry.unread, List.drop_drop]
    rfl

theorem Orderly.extent_eq (h : g.Orderly m) :
    RingMapping.extent g m (m.get64 readAt) =
      ((g.spanBytes m (m.get64 readAt)).length, (m.get64 readOffsetAt).toNat) := by
  have hwithin := h.within
  unfold RingMapping.extent
  dsimp only
  rw [← length_spanBytes, Nat.min_eq_left hwithin]

theorem slice_rest (want offset : Nat) (h : offset ≤ (g.spanBytes m c).length) :
    m.slice (g.dataAt c + offset) (min want ((g.spanBytes m c).length - offset)) =
      ((g.spanBytes m c).drop offset).take want := by
  rw [slice_part (l := (g.spanBytes m c).length) (by omega)]
  conv_lhs => rw [length_spanBytes]
  rw [← spanBytes, ← length_spanBytes, ← List.length_drop, ← List.take_eq_take_min]

theorem Orderly.gather_cons (h : g.Orderly m) (hlt : m.get64 readAt < m.get64 writeAt) {want : Nat}
    (hwant : want ≠ 0) {bytes : List UInt8} (hbytes : g.spanBytes m (m.get64 readAt) = bytes)
    {offset : Nat} (hoffset : (m.get64 readOffsetAt).toNat = offset) :
    let time := m.get64 (g.metaAt (m.get64 readAt) + 8)
    RingMapping.gather g (m.get64 writeAt) (m.get64 readAt) want m =
      if offset + want < bytes.length then
        ((bytes.drop offset).take want, some time,
          m.set64 readOffsetAt (UInt64.ofNat (offset + want)))
      else
        let next := RingMapping.gather g (m.get64 writeAt) (m.get64 readAt + 1)
          (want - (bytes.length - offset))
          ((m.set64 readOffsetAt 0).set64 readAt (m.get64 readAt + 1))
        (bytes.drop offset ++ next.1, some time, next.2.2) := by
  have hwithin : offset ≤ bytes.length := by
    rw [← hbytes, ← hoffset]
    exact h.within
  have hslice := slice_rest (g := g) (m := m) (c := m.get64 readAt) want offset
    (by rw [hbytes]; exact hwithin)
  rw [hbytes] at hslice
  rw [RingMapping.gather, dif_pos ⟨hwant, hlt⟩, h.extent_eq, hbytes, hoffset]
  dsimp only
  rw [hslice]
  generalize m.get64 readAt = c
  generalize m.get64 writeAt = w
  unfold RingMapping.advance
  by_cases hpart : offset + want < bytes.length
  · have hmin : min want (bytes.length - offset) = want := by omega
    have hstay : ¬ offset + want ≥ bytes.length := Nat.not_le.mpr hpart
    rw [if_pos hpart, hmin, if_neg hstay, if_neg hstay]
  · have hmin : min want (bytes.length - offset) = bytes.length - offset := by omega
    have hleft : offset + (bytes.length - offset) ≥ bytes.length := by omega
    have hall : (bytes.drop offset).take want = bytes.drop offset :=
      List.take_of_length_le (by rw [List.length_drop]; omega)
    rw [if_neg hpart, hmin, if_pos hleft, if_pos hleft, hall]

/-- A cursor behind the write cursor is still not beyond it one span later. -/
theorem next_of_behind (hle : c ≤ w) (hn : (w - c).toNat = n + 1) :
    c < w ∧ c + 1 ≤ w ∧ (w - (c + 1)).toNat = n := by
  have hend := w.toNat_lt
  have hbehind : c.toNat + (n + 1) = w.toNat := by
    rw [UInt64.toNat_sub_of_le _ _ hle] at hn
    have hcw := UInt64.le_iff_toNat_le.mp hle
    omega
  have hnext : (c + 1).toNat = c.toNat + 1 := by
    rw [UInt64.toNat_add, UInt64.toNat_one]
    omega
  have hstill : c + 1 ≤ w := by
    rw [UInt64.le_iff_toNat_le, hnext]
    omega
  refine ⟨?_, hstill, ?_⟩
  · rw [UInt64.lt_iff_toNat_lt]
    omega
  · rw [UInt64.toNat_sub_of_le _ _ hstill, hnext]
    omega

/-- Before the cursors come round, a read over several spans takes from the front of what is
unread. -/
theorem Orderly.gather_of_le (h : g.Orderly m) (hle : m.get64 readAt ≤ m.get64 writeAt)
    (want : Nat) :
    let out := RingMapping.gather g (m.get64 writeAt) (m.get64 readAt) want m
    out.1 = (g.unread m).take want ∧ g.Orderly out.2.2 ∧
      g.unread out.2.2 = (g.unread m).drop want := by
  generalize hn : (m.get64 writeAt - m.get64 readAt).toNat = n
  -- The spans that are used up are left behind one by one.
  induction n generalizing m want with
  | zero =>
      have hnone : g.unread m = [] := by
        rw [RingGeometry.unread, RingMapping.readable, hn, spansBytes, List.drop_nil]
      have hmet : ¬ m.get64 readAt < m.get64 writeAt := by
        rw [UInt64.toNat_sub_of_le _ _ hle] at hn
        rw [UInt64.lt_iff_toNat_lt]
        omega
      dsimp only
      rw [RingMapping.gather, dif_neg fun hgo => hmet hgo.2, hnone, List.take_nil, List.drop_nil]
      exact ⟨rfl, h, rfl⟩
  | succ n ih =>
      dsimp only
      by_cases hwant : want = 0
      · subst hwant
        rw [RingMapping.gather, dif_neg fun hgo => hgo.1 rfl, List.take_zero, List.drop_zero]
        exact ⟨rfl, h, rfl⟩
      generalize hoffset : (m.get64 readOffsetAt).toNat = offset
      generalize hbytes : g.spanBytes m (m.get64 readAt) = bytes
      have hwithin : offset ≤ bytes.length := by
        rw [← hbytes, ← hoffset]
        exact h.within
      obtain ⟨hlt, hstill, hleft⟩ := next_of_behind hle hn
      have hunread : g.unread m = bytes.drop offset ++ g.spansBytes m (m.get64 readAt + 1) n := by
        rw [RingGeometry.unread, RingMapping.readable, hn, spansBytes, hbytes, hoffset,
          List.drop_append_of_le_length hwithin]
      rw [h.gather_cons hlt hwant hbytes hoffset, hunread]
      by_cases hpart : offset + want < bytes.length
      · -- The destination is full before the oldest span is used up.
        have hlevel : RingMapping.readable m ≠ 0 := fun hmet => by
          rw [← RingMapping.readable, hmet, UInt64.toNat_zero] at hn
          cases hn
        have hrest : want ≤ (bytes.drop offset).length := by
          rw [List.length_drop]
          omega
        have hstay := h.stay hlevel want
        rw [hoffset, hbytes, hunread] at hstay
        obtain ⟨horderly, hkept⟩ := hstay hpart
        rw [if_pos hpart]
        dsimp only
        exact ⟨(List.take_append_of_le_length hrest).symm, horderly, hkept⟩
      · -- The oldest span is used up, and the others fill the rest of the destination.
        obtain ⟨horderly, hothers⟩ := h.leave (m.get64 readAt + 1)
        have hmoves := h.moves_reader (m.get64 readAt + 1)
        generalize (m.set64 readOffsetAt 0).set64 readAt (m.get64 readAt + 1) = m₁
          at horderly hothers hmoves ⊢
        rw [hleft] at hothers
        rw [← hmoves.reader, ← hmoves.writer] at hstill hleft
        obtain ⟨hgot, hend, hkept⟩ := ih horderly hstill (want - (bytes.length - offset)) hleft
        rw [hmoves.reader, hmoves.writer] at hgot hend hkept
        have hused : (bytes.drop offset).length ≤ want := by
          rw [List.length_drop]
          omega
        rw [if_neg hpart, ← hothers]
        dsimp only
        refine ⟨?_, hend, ?_⟩
        · rw [hgot, List.take_append, List.take_of_length_le hused, List.length_drop]
        · rw [hkept, List.drop_append, List.drop_eq_nil_of_le hused, List.length_drop,
            List.nil_append]

/-- A read over several spans takes what it asks for, or nothing if the cursors have come round. -/
theorem Orderly.gather (h : g.Orderly m) (want : Nat) :
    ∃ n got time m',
      RingMapping.gather g (m.get64 writeAt) (m.get64 readAt) want m = (got, time, m') ∧
      (n = want ∨ n = 0 ∧ m.get64 writeAt < m.get64 readAt) ∧ got = (g.unread m).take n ∧
      g.Orderly m' ∧ g.unread m' = (g.unread m).drop n := by
  by_cases hle : m.get64 readAt ≤ m.get64 writeAt
  · exact ⟨want, _, _, _, rfl, Or.inl rfl, h.gather_of_le hle want⟩
  · have hlt := UInt64.not_le.mp hle
    have hstop : ¬ m.get64 readAt < m.get64 writeAt := fun hgo => hle (UInt64.le_of_lt hgo)
    refine ⟨0, [], none, m, ?_, Or.inr ⟨rfl, hlt⟩, List.take_zero.symm, h, List.drop_zero.symm⟩
    rw [RingMapping.gather, dif_neg fun hgo => hstop hgo.2]

/-- The flags of the header say nothing of what is unread. -/
theorem Orderly.set_flag (h : g.Orderly m) {i : Nat} (hlow : releasedAt ≤ i)
    (hhigh : i + 4 ≤ headerBytes) (flag : UInt32) :
    g.Orderly (m.set32 i flag) ∧ g.unread (m.set32 i flag) = g.unread m := by
  have hcursors : ∀ j, j + 8 ≤ releasedAt → (m.set32 i flag).get64 j = m.get64 j := fun j hj =>
    get64_set32_of_disjoint (Or.inl (Nat.le_trans hj hlow))
  have hmoves : Moves m (m.set32 i flag) (m.get64 readAt) (m.get64 readOffsetAt) :=
    ⟨size_set32 .., fun j hj => byte_set32_of_outside (Or.inr (Nat.le_trans hhigh hj)),
      hcursors _ (by decide), hcursors _ (by decide), hcursors _ (by decide)⟩
  refine ⟨hmoves.orderly h h.empty h.within, ?_⟩
  rw [hmoves.unread (spanCount_pos h.check)]
  rfl

end RingGeometry

namespace Ring

variable {r : Ring} {frame : List UInt8} {t : UInt64} {c : UInt64} {n : Nat}

theorem spanBytes_fill_away (hg : r.mapping.geometry.check = .ok ())
    (hfits : frame.length ≤ r.mapping.geometry.spanSize.toNat)
    (hne : r.mapping.geometry.index c ≠ r.mapping.geometry.index (r.memory.get64 writeAt)) :
    r.mapping.geometry.spanBytes (r.fill frame t).memory c =
      r.mapping.geometry.spanBytes r.memory c := by
  have hpos := spanCount_pos hg
  have hheader : writeAt + 8 ≤ headerBytes := by decide
  have hmeta := metaAt_disjoint hne
  have hdata := dataAt_disjoint hne
  generalize hw : r.memory.get64 writeAt = w at hmeta hdata
  have hlow := headerBytes_le_metaAt (g := r.mapping.geometry) c
  have hcw := metaAt_add_le_dataAt hpos c w
  have hwc := metaAt_add_le_dataAt hpos w c
  have hcc := metaAt_add_le_dataAt hpos c c
  refine spanBytes_congr (fun j h₁ h₂ => ?_) fun j h₁ h₂ => ?_
  · exact byte_fill hfits (by omega) (by rw [hw]; omega) (by rw [hw]; omega)
  · exact byte_fill hfits (by omega) (by rw [hw]; omega) (by rw [hw]; omega)

/-- The unread spans keep their bytes, and the new one has the frame. -/
theorem spansBytes_fill (hg : r.mapping.geometry.check = .ok ())
    (hsize : r.memory.size = r.mapping.geometry.mappedBytes)
    (hfits : frame.length ≤ r.mapping.geometry.spanSize.toNat) (hroom : r.hasRoom)
    (hn : (r.memory.get64 writeAt - c).toNat = n) (hturn : n < r.mapping.geometry.spanCount.toNat) :
    r.mapping.geometry.spansBytes (r.fill frame t).memory c (n + 1) =
      r.mapping.geometry.spansBytes r.memory c n ++ frame := by
  generalize hw : r.memory.get64 writeAt = w at hn
  have hend := w.toNat_lt
  induction n generalizing c with
  | zero =>
      have hlt := c.toNat_lt
      have hmet : c = w := by
        rw [UInt64.toNat_sub] at hn
        rw [← UInt64.toNat_inj]
        omega
      have hspan := spanBytes_of_spanHolds (gains_fill (t := t) hg hsize hfits hroom).span
      rw [UInt64.ofNat_toNat, hw] at hspan
      rw [spansBytes, spansBytes, spansBytes, hmet, hspan, List.append_nil, List.nil_append]
  | succ n ih =>
      have hlt := c.toNat_lt
      have hne : c ≠ w := fun hmet => by
        rw [hmet, UInt64.sub_self] at hn
        cases hn
      have hnext : (w - (c + 1)).toNat = n := by
        rw [UInt64.toNat_sub] at hn ⊢
        rw [UInt64.toNat_add, UInt64.toNat_one]
        omega
      have hbehind : w - c < r.mapping.geometry.spanCount.toUInt64 := by
        rw [UInt64.lt_iff_toNat_lt, UInt32.toNat_toUInt64, hn]
        exact hturn
      have hkept := spanBytes_fill_away (t := t) hg hfits (c := c)
        (by rw [hw]; exact index_ne_of_behind hg hne hbehind)
      rw [spansBytes, ih (Nat.lt_of_succ_lt hturn) hnext, hkept, spansBytes, List.append_assoc]

theorem hasRoom_iff : r.hasRoom ↔
    (RingMapping.readable r.memory).toNat < r.mapping.geometry.spanCount.toNat := by
  rw [hasRoom, decide_eq_true_eq, UInt64.lt_iff_toNat_lt, UInt32.toNat_toUInt64]

theorem orderly_fill (h : r.mapping.geometry.Orderly r.memory)
    (hfits : frame.length ≤ r.mapping.geometry.spanSize.toNat) (hroom : r.hasRoom) :
    r.mapping.geometry.Orderly (r.fill frame t).memory ∧
      r.mapping.geometry.unread (r.fill frame t).memory =
        r.mapping.geometry.unread r.memory ++ frame := by
  have hgains := gains_fill (t := t) h.check h.size hfits hroom
  obtain ⟨hreader, hwriter⟩ := Prod.mk.inj hgains.cursors
  have hpos := spanCount_pos h.check
  have hoffset : (r.fill frame t).memory.get64 readOffsetAt = r.memory.get64 readOffsetAt := by
    have hlow := headerBytes_le_metaAt (g := r.mapping.geometry) (r.memory.get64 writeAt)
    have hdata := metaAt_add_le_dataAt hpos (r.memory.get64 writeAt) (r.memory.get64 writeAt)
    have hwords : headerBytes = 64 ∧ readOffsetAt = 32 ∧ writeAt = 16 := by decide
    exact get64_congr fun j h₁ h₂ => hgains.others j (by omega) (by omega) (by omega)
  have hlevel := hasRoom_iff.mp hroom
  have hbytes := spansBytes_fill (t := t) h.check h.size hfits hroom rfl hlevel
  rw [← RingMapping.readable] at hbytes
  have hnext : (RingMapping.readable (r.fill frame t).memory).toNat =
      (RingMapping.readable r.memory).toNat + 1 := by
    have hcount := r.mapping.geometry.spanCount.toNat_lt
    rw [RingMapping.readable, UInt64.toNat_sub] at hlevel ⊢
    rw [hreader, hwriter, RingMapping.readable, UInt64.toNat_sub, UInt64.toNat_add,
      UInt64.toNat_one]
    omega
  refine ⟨⟨h.check, hgains.size.trans h.size, fun hmet => ?_, ?_⟩, ?_⟩
  · rw [hmet, UInt64.toNat_zero] at hnext
    cases hnext
  · rw [hreader, hoffset]
    by_cases hmet : RingMapping.readable r.memory = 0
    · rw [h.empty hmet]
      exact Nat.zero_le _
    · -- The oldest span is behind the one that is written.
      have hne : r.memory.get64 readAt ≠ r.memory.get64 writeAt := fun hsame => hmet (by
        rw [RingMapping.readable, hsame, UInt64.sub_self])
      rw [spanBytes_fill_away h.check hfits
        (index_ne_of_behind h.check hne (of_decide_eq_true hroom))]
      exact h.within
  · rw [unread, hreader, hnext, hoffset, hbytes, List.drop_append_of_le_length h.offset_le]
    rfl

/-- The ring is in order and has these bytes unread. -/
def Carries (r : Ring) (bytes : List UInt8) : Prop :=
  r.mapping.geometry.Orderly r.memory ∧ r.mapping.geometry.unread r.memory = bytes

variable {bytes : List UInt8} {α : Type}

theorem Carries.of_holds (hg : r.mapping.geometry.check = .ok ()) {q : FrameQueue} {writes : Nat}
    (h : Holds r.mapping.geometry r.memory q writes) : r.Carries q.unread := by
  obtain ⟨first, h, -⟩ := h
  refine ⟨⟨hg, h.size, fun hmet => ?_, ?_⟩, unread_of_holdsFrom h⟩
  · have hlevel := h.readable
    rw [hmet, UInt64.toNat_zero] at hlevel
    have hle := h.offset_le
    rw [List.length_eq_zero_iff.mp hlevel.symm] at hle
    rw [h.offset, Nat.le_zero.mp hle]
    rfl
  · have hle := h.offset_le
    have hspans := h.spans
    rw [h.readOffset, h.reader]
    cases hq : q.frames with
    | nil =>
        rw [hq] at hle
        rw [Nat.le_zero.mp hle]
        exact Nat.zero_le _
    | cons f rest =>
        rw [hq] at hle hspans
        rw [spanBytes_of_spanHolds hspans.1]
        exact hle

theorem carries_of {p : RingMapping} {m : Memory} (horderly : p.geometry.Orderly m)
    (hunread : p.geometry.unread m = bytes) : Carries ⟨p, m⟩ bytes :=
  ⟨horderly, hunread⟩

/-- The call is refused and the bytes stay unread. -/
def Refuses (r : Ring) (op : RingMapping → Memory → Except StreamError α × Memory)
    (bytes : List UInt8) : Prop :=
  ∃ e ring, r.apply op = (.error e, ring) ∧ ring.Carries bytes

variable {op : RingMapping → Memory → Except StreamError α × Memory} {m : Memory}

theorem apply_of_eq {a : Except StreamError α} (hop : op r.mapping r.memory = (a, m)) :
    r.apply op = (a, ⟨r.mapping, m⟩) := by
  rw [apply, hop]

theorem Carries.refuses {e : StreamError} (h : Carries ⟨r.mapping, m⟩ bytes)
    (hop : op r.mapping r.memory = (.error e, m)) : r.Refuses op bytes :=
  ⟨e, _, apply_of_eq hop, h⟩

theorem Carries.enter (h : r.Carries bytes)
    (op : RingMapping → Memory → Except StreamError α × Memory) {busyAt : Nat} {name : String}
    {body : Unit → Except StreamError α × Memory}
    (hop : op r.mapping r.memory = r.mapping.enter r.memory busyAt name body)
    (hlow : releasedAt ≤ busyAt) (hhigh : busyAt + 4 ≤ headerBytes) :
    op r.mapping r.memory = body () ∨ r.Refuses op bytes := by
  rw [RingMapping.enter] at hop
  split at hop
  · exact Or.inr (Carries.refuses h hop)
  · split at hop
    · obtain ⟨horderly, hsame⟩ := h.1.set_flag hlow hhigh 1
      exact Or.inr (Carries.refuses (carries_of horderly (hsame.trans h.2)) hop)
    · exact Or.inl hop

theorem Carries.write (h : r.Carries bytes) (frame : List UInt8) (t : UInt64) :
    (∃ ring, r.apply (fun p m => p.write m frame t) = (.ok (), ring) ∧
      ring.Carries (bytes ++ frame)) ∨ r.Refuses (fun p m => p.write m frame t) bytes := by
  have hwrite := r.mapping.write_eq r.memory frame t
  by_cases hlong : frame.length > r.mapping.geometry.spanSize.toNat
  · rw [if_pos hlong] at hwrite
    exact Or.inr (Carries.refuses h hwrite)
  · rw [if_neg hlong] at hwrite
    rcases h.enter (fun p m => p.write m frame t) hwrite (by decide) (by decide) with
      hgo | hrefused
    · split at hgo
      · exact Or.inr (Carries.refuses h hgo)
      · rename_i hroom
        obtain ⟨horderly, hunread⟩ := orderly_fill (t := t) h.1 (Nat.le_of_not_lt hlong)
          (decide_eq_true (UInt64.not_le.mp hroom))
        rw [memory_fill] at horderly hunread
        rw [h.2] at hunread
        exact Or.inl ⟨_, apply_of_eq hgo, carries_of horderly hunread⟩
    · exact Or.inr hrefused

/-- A read takes what it asks for from the front, or nothing if the cursors have come round. -/
theorem Carries.readInto (h : r.Carries bytes) (want : Nat) :
    (∃ got ring n, r.apply (fun p m => p.readInto m want) = (.ok got, ring) ∧
      (n = want ∨ n = 0 ∧ r.memory.get64 writeAt < r.memory.get64 readAt) ∧
      got.data = bytes.take n ++ List.replicate (want - got.bytesRead) 0 ∧
      got.bytesRead = (bytes.take n).length ∧ (got.underrun ↔ got.bytesRead < want) ∧
      ring.Carries (bytes.drop n)) ∨
    r.Refuses (fun p m => p.readInto m want) bytes := by
  rcases h.enter (fun p m => p.readInto m want) rfl (by decide) (by decide) with
    hgo | hrefused
  · obtain ⟨n, got, time, m', hgather, hn, hgot, horderly, hunread⟩ := h.1.gather want
    rw [h.2] at hgot hunread
    rw [hgather] at hgo
    refine Or.inl ⟨_, _, n, apply_of_eq hgo, hn, ?_, ?_, ?_, carries_of horderly hunread⟩
    · rw [hgot]
    · rw [hgot]
    · exact decide_eq_true_iff
  · exact Or.inr hrefused

theorem Carries.flush (h : r.Carries bytes) :
    (∃ ring, r.apply RingMapping.flush = (.ok (), ring) ∧ ring.Carries []) ∨
      r.Refuses RingMapping.flush bytes := by
  rcases h.enter RingMapping.flush rfl (by decide) (by decide) with hgo | hrefused
  · obtain ⟨horderly, hunread⟩ := h.1.leave (r.memory.get64 writeAt)
    rw [UInt64.sub_self, UInt64.toNat_zero, spansBytes] at hunread
    exact Or.inl ⟨_, apply_of_eq hgo, carries_of horderly hunread⟩
  · exact Or.inr hrefused

theorem Carries.release (h : r.Carries bytes) : r.release.Carries bytes := by
  unfold Ring.release RingMapping.release
  by_cases hclosed : r.mapping.isClosed
  · rw [if_pos hclosed]
    exact h
  · obtain ⟨horderly, hsame⟩ := h.1.set_flag (Nat.le_refl _) (by decide) 1
    rw [if_neg hclosed]
    exact carries_of horderly (hsame.trans h.2)

end Ring
end Patchbay
