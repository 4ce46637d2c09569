import Patchbay.Proofs.Ring.Traces
import Patchbay.Proofs.Wire.Fields

/-!
# Bounds of a mapped ring

Whatever the file of a ring holds, and whatever the other side puts there between two calls, a
call that goes through a mapping stays inside the memory. Words are loaded and stored in the
header and in the notes of the spans, none of them over the magic and the geometry, and bytes are
copied within the data of one span. All this rests on the geometry that was read when the file was
opened: cursors are cut to the number of spans, lengths and offsets to the size of a span.
-/
namespace Patchbay
open Memory RingGeometry

/-- What the bytes of a file must be for it to be a ring. -/
structure Memory.IsRing (m : Memory) : Prop where
  header : 64 ≤ m.size
  magic : m.slice 0 8 = [0x41, 0x55, 0x44, 0x49, 0x4f, 0x44, 0x52, 0x42]
  spanCount : ∃ k, (m.get32 spanCountAt).toNat = 2 ^ k
  spanSize : m.get32 spanSizeAt ≠ 0
  length : m.size = 64 + (m.get32 spanCountAt).toNat * (16 + (m.get32 spanSizeAt).toNat)

/-- The first byte behind those of an access. -/
def RingAccess.stop : RingAccess → Nat
  | .load start width | .store start width => start + width
  | .copyOut _ start length | .copyIn _ start length => start + length

namespace RingGeometry

/-- Where the notes of the spans end and their data begins. -/
def dataStart (g : RingGeometry) : Nat :=
  headerBytes + g.spanCount.toNat * metaBytes

/-- Where the data of the span with the number of a cursor begins. -/
def areaAt (g : RingGeometry) (cursor : UInt64) : Nat :=
  g.dataStart + cursor.toNat % g.spanCount.toNat * g.spanSize.toNat

/-- Words stand at multiples of their width before the data of the spans, and none is stored
before the cursors. What is copied is in the data of its span. -/
def Permits (g : RingGeometry) : RingAccess → Prop
  | .load start width => width ∣ start ∧ start + width ≤ g.dataStart
  | .store start width => width ∣ start ∧ writeAt ≤ start ∧ start + width ≤ g.dataStart
  | .copyOut cursor start length | .copyIn cursor start length =>
    g.areaAt cursor ≤ start ∧ start + length ≤ g.areaAt cursor + g.spanSize.toNat

end RingGeometry

/-- A step in the life of a mapped ring. -/
inductive SharedStep where
  | call (c : RingCall)
  /-- The other side puts bytes anywhere into the memory. -/
  | overwrite (offset : Nat) (bytes : List UInt8)

namespace Ring

def step (r : Ring) : SharedStep → Ring
  | .call c =>
    let ((_, mapping), memory) := r.mapping.call r.memory c
    ⟨mapping, memory⟩
  | .overwrite offset bytes => { r with memory := r.memory.blit offset bytes }

def run (r : Ring) (steps : List SharedStep) : Ring :=
  steps.foldl step r

/-- The accesses of a call. -/
def accesses (r : Ring) (c : RingCall) : List RingAccess :=
  ((r.mapping.callTraced c).run r.memory).2

/-- A call that stays where it may be and leaves the magic and the geometry alone. -/
structure CallsSafely (r : Ring) (c : RingCall) : Prop where
  traced : ((r.mapping.callTraced c).run r.memory).1 = r.mapping.call r.memory c
  permitted : ∀ a ∈ r.accesses c, r.mapping.geometry.Permits a ∧ a.stop ≤ r.memory.size
  kept : ∀ j, j < writeAt → (r.step (.call c)).memory.byte j = r.memory.byte j

end Ring

/-- Every access of the computation is permitted, the magic and the geometry stay, and so does
the size. What it returns is as `post` says. -/
structure Traced.Safe {α : Type} (g : RingGeometry) (x : Traced α) (post : α → Prop) : Prop where
  permitted : ∀ m, ∀ a ∈ (x.run m).2, g.Permits a
  kept : ∀ m j, j < writeAt → (x.run m).1.2.byte j = m.byte j
  size : ∀ m, (x.run m).1.2.size = m.size
  returns : ∀ m, post (x.run m).1.1

variable {g : RingGeometry} {m : Memory} {α β : Type}

namespace RingGeometry

theorem check_eq_ok_iff :
    g.check = .ok () ↔ (∃ k, g.spanCount.toNat = 2 ^ k) ∧ g.spanSize ≠ 0 := by
  constructor
  · intro h
    refine ⟨spanCount_eq_two_pow h, fun hzero => ?_⟩
    unfold check at h
    split at h
    · cases h
    · cases h
  · rintro ⟨⟨k, hk⟩, hsize⟩
    have hpower : isPowerOfTwo g.spanCount.toNat := by
      simp [isPowerOfTwo, hk, Nat.one_shiftLeft]
    simp [check, hpower, hsize]

end RingGeometry

namespace Memory

theorem get64_magicAt_iff :
    m.get64 magicAt = magic ↔
      m.slice 0 8 = [0x41, 0x55, 0x44, 0x49, 0x4f, 0x44, 0x52, 0x42] := by
  have hword : m.slice 0 8 = Wire.write64 magic ↔ _ := Wire.eq_write64_iff
  have hbytes : Wire.write64 magic = [0x41, 0x55, 0x44, 0x49, 0x4f, 0x44, 0x52, 0x42] := by decide
  rw [hbytes, length_slice] at hword
  rw [hword]
  exact (and_iff_right rfl).symm

/-- The geometry in the header. -/
def geometry (m : Memory) : RingGeometry :=
  ⟨m.get32 spanCountAt, m.get32 spanSizeAt⟩

theorem isRing_iff :
    m.IsRing ↔ headerBytes ≤ m.size ∧ m.get64 magicAt = magic ∧ m.geometry.check = .ok () ∧
      m.size = m.geometry.mappedBytes := by
  rw [get64_magicAt_iff, check_eq_ok_iff]
  constructor
  · intro h
    exact ⟨h.header, h.magic, ⟨h.spanCount, h.spanSize⟩, h.length⟩
  · rintro ⟨hheader, hmagic, ⟨hcount, hsize⟩, hlength⟩
    exact ⟨hheader, hmagic, hcount, hsize, hlength⟩

end Memory

theorem RingMapping.ofFile_eq_ok_iff {path : String} {r : RingMapping} :
    ofFile path m = .ok r ↔
      m.IsRing ∧ r = { geometry := m.geometry, path := some path, isOwner := false } := by
  have hgeometry : m.geometry = ⟨m.get32 spanCountAt, m.get32 spanSizeAt⟩ := rfl
  rw [isRing_iff, ofFile, ← hgeometry]
  by_cases hheader : m.size < headerBytes
  · simp [hheader, Nat.not_le.mpr hheader]
  · by_cases hmagic : m.get64 magicAt = magic
    · cases hcheck : m.geometry.check with
      | error e => simp [hheader, hmagic, hcheck]
      | ok u =>
          by_cases hsize : m.size = m.geometry.mappedBytes
          · simp [hheader, hmagic, hcheck, ← hsize, Nat.le_of_not_lt hheader, eq_comm]
          · simp [hheader, hmagic, hcheck, hsize]
    · simp [hheader, hmagic]

namespace RingWorkspace

variable {w : RingWorkspace} {path : String} {n i : Nat}

theorem openFile_of_isRing (hfile : w.files.get? path = some n) (h : (w.memory n).IsRing) :
    let r : RingMapping :=
      { geometry := (w.memory n).geometry, path := some path, isOwner := false }
    w.openFile path =
      (.ok w.mappings.size, { w with mappings := w.mappings.push (some (r, n)) }) := by
  simp [openFile, hfile, RingMapping.ofFile_eq_ok_iff.mpr ⟨h, rfl⟩]

theorem isRing_of_openFile (hfile : w.files.get? path = some n)
    (h : (w.openFile path).1 = .ok i) : (w.memory n).IsRing := by
  unfold openFile at h
  rw [hfile] at h
  dsimp only at h
  split at h
  · cases h
  · rename_i r hopen
    exact (RingMapping.ofFile_eq_ok_iff.mp hopen).1

end RingWorkspace

namespace RingGeometry

variable {cursor : UInt64} {i width start length : Nat}

theorem headerBytes_le_dataStart (g : RingGeometry) : headerBytes ≤ g.dataStart :=
  Nat.le_add_right _ _

theorem index_eq_mod (hg : g.check = .ok ()) (cursor : UInt64) :
    g.index cursor = cursor.toNat % g.spanCount.toNat := by
  have h := index_ofNat hg cursor.toNat_lt
  rwa [UInt64.ofNat_toNat] at h

theorem dataAt_eq_areaAt (hg : g.check = .ok ()) (cursor : UInt64) :
    g.dataAt cursor = g.areaAt cursor := by
  rw [dataAt, index_eq_mod hg]
  rfl

theorem areaAt_add_le_mappedBytes (hg : g.check = .ok ()) (cursor : UInt64) :
    g.areaAt cursor + g.spanSize.toNat ≤ g.mappedBytes := by
  rw [← dataAt_eq_areaAt hg]
  exact dataAt_add_le_mappedBytes (spanCount_pos hg) cursor

theorem dataStart_le_mappedBytes (g : RingGeometry) : g.dataStart ≤ g.mappedBytes := by
  rw [dataStart, mappedBytes, Nat.mul_add]
  omega

theorem Permits.stop_le {a : RingAccess} (h : g.Permits a) (hg : g.check = .ok ()) :
    a.stop ≤ g.mappedBytes := by
  have hdata := g.dataStart_le_mappedBytes
  cases a with
  | load start width => exact Nat.le_trans h.2 hdata
  | store start width => exact Nat.le_trans h.2.2 hdata
  | copyOut cursor start length =>
      exact Nat.le_trans h.2 (areaAt_add_le_mappedBytes hg cursor)
  | copyIn cursor start length =>
      exact Nat.le_trans h.2 (areaAt_add_le_mappedBytes hg cursor)

theorem permits_store_header (hwidth : width ∣ i) (hlow : writeAt ≤ i)
    (hend : i + width ≤ headerBytes) : g.Permits (.store i width) :=
  ⟨hwidth, hlow, Nat.le_trans hend g.headerBytes_le_dataStart⟩

/-- The words of the header that hold cursors and the read offset. -/
theorem permits_cursors (g : RingGeometry) :
    g.Permits (.store writeAt 8) ∧ g.Permits (.store readAt 8) ∧
      g.Permits (.store readOffsetAt 8) := by
  refine ⟨?_, ?_, ?_⟩ <;> exact permits_store_header (by decide) (by decide) (by decide)

theorem permits_load_of_store (h : g.Permits (.store i width)) : g.Permits (.load i width) :=
  ⟨h.1, h.2.2⟩

theorem permits_store_meta (hg : g.check = .ok ()) (cursor : UInt64) :
    g.Permits (.store (g.metaAt cursor) 8) ∧ g.Permits (.store (g.metaAt cursor + 8) 8) := by
  have hlt := Nat.mul_le_mul_right metaBytes (index_lt (spanCount_pos hg) cursor)
  simp only [Permits, metaAt, dataStart, headerBytes, metaBytes, writeAt] at hlt ⊢
  omega

theorem permits_copyOut (hg : g.check = .ok ()) (hend : start + length ≤ g.spanSize.toNat) :
    g.Permits (.copyOut cursor (g.dataAt cursor + start) length) := by
  rw [dataAt_eq_areaAt hg]
  exact ⟨Nat.le_add_right _ _, by omega⟩

theorem permits_rest (hg : g.check = .ok ()) {e : Nat × Nat}
    (he : e.2 ≤ e.1 ∧ e.1 ≤ g.spanSize.toNat) (cursor : UInt64) (limit : Nat) :
    g.Permits (.copyOut cursor (g.dataAt cursor + e.2) (min limit (e.1 - e.2))) :=
  permits_copyOut hg (by omega)

theorem permits_copyIn (hg : g.check = .ok ()) (hend : length ≤ g.spanSize.toNat) :
    g.Permits (.copyIn cursor (g.dataAt cursor) length) := by
  rw [dataAt_eq_areaAt hg]
  exact ⟨Nat.le_refl _, Nat.add_le_add_left hend _⟩

end RingGeometry

namespace Traced

variable {x y : Traced α} {f : α → Traced β} {P : α → Prop} {Q : β → Prop} {a : α}
variable {i start n : Nat} {cursor : UInt64} {bytes : List UInt8}

theorem safe_pure (h : P a) : Safe g (pure a) P where
  permitted _ _ ha := absurd ha List.not_mem_nil
  kept _ _ _ := rfl
  size _ := rfl
  returns _ := h

theorem Safe.bind (hx : Safe g x P) (hf : ∀ a, P a → Safe g (f a) Q) : Safe g (x >>= f) Q where
  permitted m a ha := by
    rw [run_bind, List.mem_append] at ha
    rcases ha with ha | ha
    · exact hx.permitted m a ha
    · exact (hf _ (hx.returns m)).permitted _ a ha
  kept m j hj := ((hf _ (hx.returns m)).kept _ j hj).trans (hx.kept m j hj)
  size m := ((hf _ (hx.returns m)).size _).trans (hx.size m)
  returns m := (hf _ (hx.returns m)).returns _

theorem Safe.ite {p : Prop} [Decidable p] (hx : p → Safe g x P) (hy : ¬ p → Safe g y P) :
    Safe g (if p then x else y) P := by
  split
  · exact hx ‹_›
  · exact hy ‹_›

theorem safe_access {access : RingAccess} (h : g.Permits access)
    (haccess : ∀ m, (x.run m).2 = [access])
    (hkept : ∀ m j, j < writeAt → (x.run m).1.2.byte j = m.byte j)
    (hsize : ∀ m, (x.run m).1.2.size = m.size) : Safe g x fun _ => True where
  permitted m a ha := by
    rw [haccess, List.mem_singleton] at ha
    rwa [ha]
  kept := hkept
  size := hsize
  returns _ := trivial

theorem safe_load32 (h : g.Permits (.load i 4)) : Safe g (load32 i) fun _ => True :=
  safe_access h (by simp) (by simp) (by simp)

theorem safe_load64 (h : g.Permits (.load i 8)) : Safe g (load64 i) fun _ => True :=
  safe_access h (by simp) (by simp) (by simp)

theorem safe_store32 {w : UInt32} (h : g.Permits (.store i 4)) :
    Safe g (store32 i w) fun _ => True := by
  have hkept : ∀ (m : Memory) (j : Nat), j < writeAt → (m.set32 i w).byte j = m.byte j :=
    fun m j hj => byte_set32_of_outside (Or.inl (Nat.lt_of_lt_of_le hj h.2.1))
  exact safe_access h (by simp) (by simpa using hkept) (by simp)

theorem safe_store64 {w : UInt64} (h : g.Permits (.store i 8)) :
    Safe g (store64 i w) fun _ => True := by
  have hkept : ∀ (m : Memory) (j : Nat), j < writeAt → (m.set64 i w).byte j = m.byte j :=
    fun m j hj => byte_set64_of_outside (Or.inl (Nat.lt_of_lt_of_le hj h.2.1))
  exact safe_access h (by simp) (by simpa using hkept) (by simp)

theorem safe_copyOut (h : g.Permits (.copyOut cursor start n)) :
    Safe g (copyOut cursor start n) fun _ => True :=
  safe_access h (by simp) (by simp) (by simp)

theorem safe_copyIn (h : g.Permits (.copyIn cursor start bytes.length)) :
    Safe g (copyIn cursor start bytes) fun _ => True := by
  have hstart : writeAt ≤ start := by
    have hdata := g.headerBytes_le_dataStart
    have harea : g.dataStart ≤ g.areaAt cursor := Nat.le_add_right _ _
    have hlow : writeAt ≤ headerBytes := by decide
    have hfirst := h.1
    omega
  have hkept : ∀ (m : Memory) (j : Nat), j < writeAt → (m.blit start bytes).byte j = m.byte j :=
    fun m j hj => byte_blit_of_outside (Or.inl (Nat.lt_of_lt_of_le hj hstart))
  exact safe_access h (by simp) (by simpa using hkept) (by simp)

theorem safe_takeFlag (h : g.Permits (.store i 4)) : Safe g (takeFlag i) fun _ => True where
  permitted m a ha := by
    have ha : a = .load i 4 ∨ a = .store i 4 := by
      unfold takeFlag at ha
      by_cases hbusy : m.get32 i = 0 <;> simpa [hbusy] using ha
    rcases ha with rfl | rfl
    · exact permits_load_of_store h
    · exact h
  kept m j hj := by
    have houtside : (m.set32 i 1).byte j = m.byte j :=
      byte_set32_of_outside (Or.inl (Nat.lt_of_lt_of_le hj h.2.1))
    unfold takeFlag
    by_cases hbusy : m.get32 i = 0 <;> simp [hbusy, houtside]
  size m := by
    unfold takeFlag
    by_cases hbusy : m.get32 i = 0 <;> simp [hbusy]
  returns _ := trivial

end Traced

namespace RingMapping
open Traced

variable {r : RingMapping} {c : RingCall} {busyAt : Nat} {op : String} {cursor : UInt64}

theorem safe_enterTraced {body : Traced (Except StreamError α)}
    (hbusy : g.Permits (.store busyAt 4)) (hbody : Safe g body fun _ => True) :
    Safe g (r.enterTraced busyAt op body) fun _ => True := by
  have hreleased : g.Permits (.load releasedAt 4) :=
    permits_load_of_store (permits_store_header (by decide) (by decide) (by decide))
  refine .ite (fun _ => safe_pure trivial) fun _ => ?_
  refine (safe_load32 hreleased).bind fun released _ => ?_
  refine .ite (fun _ => safe_pure trivial) fun _ => ?_
  refine (safe_takeFlag hbusy).bind fun isFree _ => ?_
  exact .ite (fun _ => hbody) fun _ => safe_pure trivial

theorem safe_writeTraced (hg : r.geometry.check = .ok ()) (frame : List UInt8) (t : UInt64) :
    Safe r.geometry (r.writeTraced frame t) fun _ => True := by
  obtain ⟨hwrite, hread, -⟩ := permits_cursors r.geometry
  refine .ite (fun _ => safe_pure trivial) fun hfits => ?_
  apply safe_enterTraced (permits_store_header (by decide) (by decide) (by decide))
  refine (safe_load64 (permits_load_of_store hwrite)).bind fun w _ => ?_
  refine (safe_load64 (permits_load_of_store hread)).bind fun read _ => ?_
  refine .ite (fun _ => safe_pure trivial) fun _ => ?_
  obtain ⟨hlength, htime⟩ := permits_store_meta hg w
  refine (safe_copyIn (permits_copyIn hg (Nat.le_of_not_lt hfits))).bind fun _ _ => ?_
  refine (safe_store64 hlength).bind fun _ _ => ?_
  refine (safe_store64 htime).bind fun _ _ => ?_
  exact (safe_store64 hwrite).bind fun _ _ => safe_pure trivial

/-- Whatever the notes of a span say, its extent lies within it. -/
theorem safe_extentTraced (hg : g.check = .ok ()) (cursor : UInt64) :
    Safe g (extentTraced g cursor) fun e => e.2 ≤ e.1 ∧ e.1 ≤ g.spanSize.toNat := by
  refine (safe_load64 (permits_load_of_store (permits_store_meta hg cursor).1)).bind
    fun valid _ => ?_
  refine (safe_load64 (permits_load_of_store (permits_cursors g).2.2)).bind fun offset _ => ?_
  exact safe_pure ⟨Nat.min_le_right _ _, Nat.min_le_right _ _⟩

theorem safe_advanceTraced (g : RingGeometry) (cursor : UInt64) (consumed valid : Nat) :
    Safe g (advanceTraced cursor consumed valid) fun _ => True := by
  obtain ⟨-, hread, hoffset⟩ := permits_cursors g
  refine .ite (fun _ => ?_) fun _ => safe_store64 hoffset
  exact (safe_store64 hoffset).bind fun _ _ => safe_store64 hread

theorem safe_readTraced (hg : r.geometry.check = .ok ()) (limit : Nat) :
    Safe r.geometry (r.readTraced limit) fun _ => True := by
  obtain ⟨hwrite, hread, -⟩ := permits_cursors r.geometry
  apply safe_enterTraced (permits_store_header (by decide) (by decide) (by decide))
  refine (safe_load64 (permits_load_of_store hread)).bind fun cursor _ => ?_
  refine (safe_load64 (permits_load_of_store hwrite)).bind fun write _ => ?_
  refine .ite (fun _ => safe_pure trivial) fun _ => ?_
  have htime := permits_load_of_store (permits_store_meta hg cursor).2
  refine (safe_extentTraced hg cursor).bind fun e he => ?_
  refine (safe_copyOut (permits_rest hg he cursor limit)).bind fun data _ => ?_
  refine (safe_load64 htime).bind fun time _ => ?_
  exact (safe_advanceTraced _ _ _ _).bind fun _ _ => safe_pure trivial

theorem safe_gatherTraced (hg : g.check = .ok ()) (spans : Nat) (cursor : UInt64) (want : Nat) :
    Safe g (gatherTraced g spans cursor want) fun _ => True := by
  induction spans generalizing cursor want with
  | zero => exact safe_pure trivial
  | succ spans ih =>
      refine .ite (fun _ => safe_pure trivial) fun _ => ?_
      have htime := permits_load_of_store (permits_store_meta hg cursor).2
      refine (safe_extentTraced hg cursor).bind fun e he => ?_
      refine (safe_copyOut (permits_rest hg he cursor want)).bind fun chunk _ => ?_
      refine (safe_load64 htime).bind fun time _ => ?_
      refine (safe_advanceTraced _ _ _ _).bind fun _ _ => ?_
      refine .ite (fun _ => ?_) fun _ => safe_pure trivial
      exact (ih _ _).bind fun _ _ => safe_pure trivial

theorem safe_readIntoTraced (hg : r.geometry.check = .ok ()) (want : Nat) :
    Safe r.geometry (r.readIntoTraced want) fun _ => True := by
  obtain ⟨hwrite, hread, -⟩ := permits_cursors r.geometry
  apply safe_enterTraced (permits_store_header (by decide) (by decide) (by decide))
  refine (safe_load64 (permits_load_of_store hwrite)).bind fun write _ => ?_
  refine (safe_load64 (permits_load_of_store hread)).bind fun read _ => ?_
  exact (safe_gatherTraced hg _ _ _).bind fun _ _ => safe_pure trivial

theorem safe_flushTraced (r : RingMapping) : Safe r.geometry r.flushTraced fun _ => True := by
  obtain ⟨hwrite, hread, hoffset⟩ := permits_cursors r.geometry
  apply safe_enterTraced (permits_store_header (by decide) (by decide) (by decide))
  refine (safe_load64 (permits_load_of_store hwrite)).bind fun write _ => ?_
  refine (safe_store64 hoffset).bind fun _ _ => ?_
  exact (safe_store64 hread).bind fun _ _ => safe_pure trivial

theorem safe_releaseTraced (r : RingMapping) :
    Safe r.geometry r.releaseTraced fun r' => r'.geometry = r.geometry := by
  refine .ite (fun _ => safe_pure rfl) fun _ => ?_
  exact (safe_store32 (permits_store_header (by decide) (by decide) (by decide))).bind
    fun _ _ => safe_pure rfl

theorem safe_callTraced (hg : r.geometry.check = .ok ()) (c : RingCall) :
    Safe r.geometry (r.callTraced c) fun result => result.2.geometry = r.geometry := by
  cases c with
  | write frame t => exact (safe_writeTraced hg frame t).bind fun _ _ => safe_pure rfl
  | read limit => exact (safe_readTraced hg limit).bind fun _ _ => safe_pure rfl
  | readInto want => exact (safe_readIntoTraced hg want).bind fun _ _ => safe_pure rfl
  | flush => exact (safe_flushTraced r).bind fun _ _ => safe_pure rfl
  | release => exact (safe_releaseTraced r).bind fun _ hr => safe_pure hr

end RingMapping

namespace Ring

variable {r : Ring}

/-- The memory has the size that the geometry of the mapping asks for. -/
structure Fits (r : Ring) (g : RingGeometry) : Prop where
  geometry : r.mapping.geometry = g
  size : r.memory.size = g.mappedBytes

theorem Fits.step (h : r.Fits g) (hg : g.check = .ok ()) (t : SharedStep) : (r.step t).Fits g := by
  obtain ⟨rfl, hsize⟩ := h
  cases t with
  | overwrite offset bytes => exact ⟨rfl, (size_blit ..).trans hsize⟩
  | call c =>
      have hsafe := RingMapping.safe_callTraced hg c
      have hgeometry := hsafe.returns r.memory
      have hkept := hsafe.size r.memory
      rw [RingMapping.run_callTraced] at hgeometry hkept
      exact ⟨hgeometry, hkept.trans hsize⟩

theorem Fits.run (h : r.Fits g) (hg : g.check = .ok ()) (steps : List SharedStep) :
    (r.run steps).Fits g := by
  induction steps generalizing r with
  | nil => exact h
  | cons t steps ih => exact ih (h.step hg t)

theorem Fits.callsSafely (h : r.Fits g) (hg : g.check = .ok ()) (c : RingCall) :
    r.CallsSafely c := by
  obtain ⟨rfl, hsize⟩ := h
  have hsafe := RingMapping.safe_callTraced hg c
  exact {
    traced := RingMapping.run_callTraced r.mapping r.memory c
    permitted := fun a ha => by
      have hpermits := hsafe.permitted r.memory a ha
      rw [hsize]
      exact ⟨hpermits, hpermits.stop_le hg⟩
    kept := fun j hj => by
      have hkept := hsafe.kept r.memory j hj
      rwa [RingMapping.run_callTraced] at hkept }

end Ring

/-- A file can be opened if it is a ring, and only then. Whatever it holds, and whatever the other
side makes of it later, no call leaves the memory, no copy leaves the data of its span, and the
magic and the geometry are never written. -/
theorem opened_ring_calls_safely (w : RingWorkspace) (path : String) (n : Nat)
    (hfile : w.files.get? path = some n) :
    ((∃ i, (w.openFile path).1 = .ok i) ↔ (w.memory n).IsRing) ∧
      ∀ i, (w.openFile path).1 = .ok i →
        ∃ r, (w.openFile path).2.mapping? i = some (r, n) ∧
          ∀ steps c,
            ((Ring.mk r (w.memory n)).run steps).mapping.geometry = (w.memory n).geometry ∧
            ((Ring.mk r (w.memory n)).run steps).CallsSafely c := by
  constructor
  · constructor
    · rintro ⟨i, hi⟩
      exact RingWorkspace.isRing_of_openFile hfile hi
    · intro hring
      exact ⟨_, by rw [RingWorkspace.openFile_of_isRing hfile hring]⟩
  · intro i hi
    have hring := RingWorkspace.isRing_of_openFile hfile hi
    obtain ⟨-, -, hcheck, hsize⟩ := isRing_iff.mp hring
    rw [RingWorkspace.openFile_of_isRing hfile hring] at hi ⊢
    cases hi
    let r : RingMapping :=
      { geometry := (w.memory n).geometry, path := some path, isOwner := false }
    have hstart : (Ring.mk r (w.memory n)).Fits (w.memory n).geometry := ⟨rfl, hsize⟩
    refine ⟨r, by simp [RingWorkspace.mapping?, r], fun steps c => ?_⟩
    have hfits := hstart.run hcheck steps
    exact ⟨hfits.geometry, hfits.callsSafely hcheck c⟩

/-- A file of two spans of four bytes. Its write cursor is six spans ahead of the read cursor, and
the offset and the notes name more bytes than there are. -/
def strayContents : List UInt8 :=
  LittleEndian.bytes 8 RingGeometry.magic.toNat ++ LittleEndian.bytes 4 2 ++
    LittleEndian.bytes 4 4 ++ LittleEndian.bytes 8 9 ++ LittleEndian.bytes 8 3 ++
    List.replicate 8 0xff ++ List.replicate 24 0 ++ List.replicate 40 0xff

theorem isRing_strayContents : (Memory.ofList strayContents).IsRing where
  header := by decide
  magic := by decide
  spanCount := ⟨1, by decide⟩
  spanSize := by decide
  length := by decide

/-- It is opened, and read across many spans after the read cursor was moved from outside. -/
theorem stray_file_read_safely :
    let w := RingWorkspace.putFile {} "/r" strayContents
    w.files.get? "/r" = some 0 ∧ (w.openFile "/r").1 = .ok 0 ∧
      ∃ r, (w.openFile "/r").2.mapping? 0 = some (r, 0) ∧
        ((Ring.mk r (w.memory 0)).run
          [.call (.read 9), .overwrite readAt (LittleEndian.bytes 8 1)]).CallsSafely
          (.readInto 9) := by
  intro w
  have hfile : w.files.get? "/r" = some 0 := rfl
  have hring : (w.memory 0).IsRing := isRing_strayContents
  have hopen : (w.openFile "/r").1 = .ok 0 := by
    rw [RingWorkspace.openFile_of_isRing hfile hring]
    rfl
  obtain ⟨r, hr, hsafe⟩ := (opened_ring_calls_safely w "/r" 0 hfile).2 0 hopen
  exact ⟨hfile, hopen, r, hr, (hsafe _ _).2⟩

end Patchbay
