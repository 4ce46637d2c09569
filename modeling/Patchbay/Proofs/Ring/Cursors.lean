import Patchbay.Proofs.Ring.Bounds

/-!
# Cursors that the other side has overwritten

Lengths and offsets are cut to their span before they are used, the two cursors are not. Here the
operations are written once more in checked arithmetic, which has no answer where a difference
would be negative or a cursor would pass its last value, and the spans that a read looks at are
counted. That nothing goes wrong in either way depends on how far apart the cursors are, and for
one write on how far they have come.
-/
namespace Patchbay
open RingGeometry

namespace RingMapping

variable {α : Type}

/-- The difference of two cursors, if it is not negative. -/
def minus? (a b : UInt64) : Option UInt64 :=
  if b ≤ a then some (a - b) else none

/-- The cursor of the next span, if there is one. -/
def next? (cursor : UInt64) : Option UInt64 :=
  if cursor.toNat + 1 < 2 ^ 64 then some (cursor + 1) else none

def readableChecked (m : Memory) : Option UInt64 :=
  minus? (m.get64 writeAt) (m.get64 readAt)

def enterChecked (r : RingMapping) (m : Memory) (busyAt : Nat) (op : String)
    (body : Unit → Option (Except StreamError α × Memory)) :
    Option (Except StreamError α × Memory) :=
  if r.isReleased m then some (.error .released, m)
  else if m.get32 busyAt ≠ 0 then
    some (.error (.illegalState op "concurrent access"), m.set32 busyAt 1)
  else body ()

def writeChecked (r : RingMapping) (m : Memory) (frame : List UInt8) (timestamp : UInt64) :
    Option (Except StreamError Unit × Memory) :=
  let g := r.geometry
  if frame.length > g.spanSize.toNat then
    some (.error (.invalidParam
      s!"frame of {frame.length} bytes exceeds span size {g.spanSize}"), m)
  else
    r.enterChecked m producerBusyAt "write" fun _ => do
      let w := m.get64 writeAt
      let level ← minus? w (m.get64 readAt)
      if level ≥ g.spanCount.toUInt64 then return (.error .bufferFull, m)
      let m := m.blit (g.dataAt w) frame
      let m := m.set64 (g.metaAt w) (UInt64.ofNat frame.length)
      let m := m.set64 (g.metaAt w + 8) timestamp
      return (.ok (), m.set64 writeAt (← next? w))

def advanceChecked (m : Memory) (cursor : UInt64) (consumed valid : Nat) : Option Memory :=
  if consumed ≥ valid then (next? cursor).map ((m.set64 readOffsetAt 0).set64 readAt ·)
  else some (m.set64 readOffsetAt (UInt64.ofNat consumed))

def readChecked (r : RingMapping) (m : Memory) (limit : Nat) :
    Option (Except StreamError SpanRead × Memory) :=
  r.enterChecked m consumerBusyAt "read" fun _ => do
    let cursor := m.get64 readAt
    if cursor = m.get64 writeAt then return (.error .bufferEmpty, m)
    let (valid, offset) := extent r.geometry m cursor
    let n := min limit (valid - offset)
    let data := m.slice (r.geometry.dataAt cursor + offset) n
    let m' ← advanceChecked m cursor (offset + n) valid
    return (.ok ⟨data, m.get64 (r.geometry.metaAt cursor + 8)⟩, m')

/-- Here the recursion is on the number of spans between the cursors. -/
def gatherChecked (g : RingGeometry) :
    Nat → UInt64 → Nat → Memory → Option (List UInt8 × Option UInt64 × Memory)
  | 0, _, _, m => some ([], none, m)
  | spans + 1, cursor, want, m =>
    if want = 0 then some ([], none, m)
    else do
      let e := extent g m cursor
      let n := min want (e.1 - e.2)
      let chunk := m.slice (g.dataAt cursor + e.2) n
      let time := m.get64 (g.metaAt cursor + 8)
      let m' ← advanceChecked m cursor (e.2 + n) e.1
      if e.2 + n ≥ e.1 then
        let next ← gatherChecked g spans (← next? cursor) (want - n) m'
        return (chunk ++ next.1, some time, next.2.2)
      else return (chunk, some time, m')

def readIntoChecked (r : RingMapping) (m : Memory) (want : Nat) :
    Option (Except StreamError FilledRead × Memory) :=
  r.enterChecked m consumerBusyAt "read" fun _ => do
    let write := m.get64 writeAt
    let read := m.get64 readAt
    let (got, time, m') ← gatherChecked r.geometry (write.toNat - read.toNat) read want m
    return (.ok ⟨got ++ List.replicate (want - got.length) 0, got.length, got.length < want,
      time⟩, m')

variable {r : RingMapping} {g : RingGeometry} {m : Memory} {a b cursor write : UInt64}
variable {busyAt want : Nat} {op : String}

theorem minus?_of_le (h : b ≤ a) : minus? a b = some (a - b) := if_pos h

theorem next?_of_lt (h : a < b) : next? a = some (a + 1) := by
  refine if_pos ?_
  have hlt := UInt64.lt_iff_toNat_lt.mp h
  have hb := b.toNat_lt
  omega

theorem toNat_next (h : a < b) : (a + 1).toNat = a.toNat + 1 := by
  have hlt := UInt64.lt_iff_toNat_lt.mp h
  have hb := b.toNat_lt
  rw [UInt64.toNat_add, UInt64.toNat_one]
  omega

theorem enterChecked_eq {body : Unit → Option (Except StreamError α × Memory)}
    {body' : Unit → Except StreamError α × Memory}
    (h : r.isReleased m = false → m.get32 busyAt = 0 → body () = some (body' ())) :
    r.enterChecked m busyAt op body = some (r.enter m busyAt op body') := by
  unfold enterChecked enter
  by_cases hreleased : r.isReleased m
  · simp [hreleased]
  · by_cases hbusy : m.get32 busyAt = 0
    · simpa [hreleased, hbusy] using h (by simpa using hreleased) hbusy
    · simp [hreleased, hbusy]

theorem advanceChecked_of_lt (h : cursor < write) (m : Memory) (consumed valid : Nat) :
    advanceChecked m cursor consumed valid = some (advance m cursor consumed valid) := by
  unfold advanceChecked advance
  rw [next?_of_lt h]
  split <;> rfl

/-- The loop stops at the write cursor, so its own never passes the last value. -/
theorem gatherChecked_eq (g : RingGeometry) (write cursor : UInt64) (want : Nat) (m : Memory) :
    gatherChecked g (write.toNat - cursor.toNat) cursor want m =
      some (gather g write cursor want m) := by
  generalize hspans : write.toNat - cursor.toNat = spans
  induction spans generalizing cursor want m with
  | zero =>
      have hlt : ¬ cursor < write := by
        rw [UInt64.lt_iff_toNat_lt]
        omega
      rw [gather, dif_neg fun h => hlt h.2]
      rfl
  | succ spans ih =>
      have hlt : cursor < write := by
        rw [UInt64.lt_iff_toNat_lt]
        omega
      rw [gatherChecked, gather]
      by_cases hwant : want = 0
      · simp [hwant]
      · have hnext : write.toNat - (cursor + 1).toNat = spans := by
          rw [toNat_next hlt]
          omega
        rw [if_neg hwant, dif_pos ⟨hwant, hlt⟩]
        dsimp only
        rw [advanceChecked_of_lt hlt, next?_of_lt hlt]
        simp only [Option.bind_eq_bind, Option.bind_some]
        split
        · rw [ih _ _ _ hnext]
          rfl
        · rfl

theorem readIntoChecked_eq (r : RingMapping) (m : Memory) (want : Nat) :
    r.readIntoChecked m want = some (r.readInto m want) := by
  refine enterChecked_eq fun _ _ => ?_
  dsimp only
  rw [gatherChecked_eq]
  rfl

theorem readChecked_eq (h : m.get64 readAt ≤ m.get64 writeAt) (limit : Nat) :
    r.readChecked m limit = some (r.read m limit) := by
  refine enterChecked_eq fun _ _ => ?_
  by_cases hempty : m.get64 readAt = m.get64 writeAt
  · simp [hempty]
  · have hlt : m.get64 readAt < m.get64 writeAt := UInt64.lt_of_le_of_ne h hempty
    simp [hempty, advanceChecked_of_lt hlt]

/-- A side on which a call comes as far as the cursors. -/
def Admits (r : RingMapping) (m : Memory) (busyAt : Nat) : Prop :=
  r.isReleased m = false ∧ m.get32 busyAt = 0

theorem writeChecked_iff (r : RingMapping) (m : Memory)
    (hle : m.get64 readAt ≤ m.get64 writeAt) :
    (∀ frame t, r.writeChecked m frame t = some (r.write m frame t)) ↔
      (r.Admits m producerBusyAt →
        (m.get64 writeAt).toNat < (m.get64 readAt).toNat + r.geometry.spanCount.toNat →
        (m.get64 writeAt).toNat + 1 < 2 ^ 64) := by
  have hlevel : (m.get64 writeAt - m.get64 readAt).toNat =
      (m.get64 writeAt).toNat - (m.get64 readAt).toNat := UInt64.toNat_sub_of_le _ _ hle
  have hfull : r.geometry.spanCount.toUInt64 ≤ m.get64 writeAt - m.get64 readAt ↔
      (m.get64 readAt).toNat + r.geometry.spanCount.toNat ≤ (m.get64 writeAt).toNat := by
    have hle := UInt64.le_iff_toNat_le.mp hle
    rw [UInt64.le_iff_toNat_le, hlevel, UInt32.toNat_toUInt64]
    omega
  constructor
  · rintro h ⟨hreleased, hbusy⟩ hroom
    have hempty := h [] 0
    by_contra hlast
    have hnext : next? (m.get64 writeAt) = none := if_neg hlast
    unfold writeChecked enterChecked at hempty
    simp [hreleased, hbusy, minus?_of_le hle, hfull, Nat.not_le.mpr hroom, hnext] at hempty
  · intro h frame t
    unfold writeChecked write
    dsimp only
    split
    · rfl
    · refine enterChecked_eq fun hreleased hbusy => ?_
      rw [minus?_of_le hle]
      by_cases hroom : r.geometry.spanCount.toUInt64 ≤ m.get64 writeAt - m.get64 readAt
      · simp [hroom]
      · have hlast := h ⟨hreleased, hbusy⟩ (Nat.lt_of_not_le fun hle => hroom (hfull.mpr hle))
        have hnext : next? (m.get64 writeAt) = some (m.get64 writeAt + 1) := if_pos hlast
        simp [hroom, hnext]

end RingMapping

def RingAccess.isCopyOut : RingAccess → Bool
  | .copyOut .. => true
  | _ => false

/-- How many spans a read into a destination of `want` bytes copies from. -/
def Ring.visits (r : Ring) (want : Nat) : Nat :=
  (r.accesses (.readInto want)).countP RingAccess.isCopyOut

namespace RingMapping
open Traced

variable {r : RingMapping} {g : RingGeometry} {m : Memory}

/-- The spans that the loop of a read copies from. -/
def gatherVisits (g : RingGeometry) (spans : Nat) (cursor : UInt64) (want : Nat) (m : Memory) :
    Nat :=
  ((gatherTraced g spans cursor want).run m).2.countP RingAccess.isCopyOut

theorem copyOuts_advanceTraced (cursor : UInt64) (consumed valid : Nat) (m : Memory) :
    ((advanceTraced cursor consumed valid).run m).2.countP RingAccess.isCopyOut = 0 := by
  unfold advanceTraced
  rw [run_ite]
  split <;> rfl

theorem gatherVisits_zero (g : RingGeometry) (spans : Nat) (cursor : UInt64) (m : Memory) :
    gatherVisits g spans cursor 0 m = 0 := by
  cases spans <;> rfl

theorem gatherVisits_succ (g : RingGeometry) (spans : Nat) (cursor : UInt64) {want : Nat}
    (hwant : want ≠ 0) (m : Memory) :
    let e := extent g m cursor
    let n := min want (e.1 - e.2)
    gatherVisits g (spans + 1) cursor want m =
      1 + if e.2 + n ≥ e.1 then
        gatherVisits g spans (cursor + 1) (want - n) (advance m cursor (e.2 + n) e.1)
      else 0 := by
  intro e n
  unfold gatherVisits
  rw [gatherTraced, if_neg hwant]
  simp only [run_bind, run_extentTraced, run_copyOut, run_load64, run_advanceTraced, run_ite,
    List.countP_append, copyOuts_advanceTraced]
  split
  · simp [RingAccess.isCopyOut, e, n]
  · simp [RingAccess.isCopyOut]

theorem gatherVisits_le (g : RingGeometry) (spans : Nat) (cursor : UInt64) (want : Nat)
    (m : Memory) : gatherVisits g spans cursor want m ≤ spans := by
  induction spans generalizing cursor want m with
  | zero => exact Nat.le_refl 0
  | succ spans ih =>
      by_cases hwant : want = 0
      · rw [hwant, gatherVisits_zero]
        exact Nat.zero_le _
      · rw [gatherVisits_succ g spans cursor hwant]
        split
        · rw [Nat.add_comm]
          exact Nat.succ_le_succ (ih _ _ _)
        · omega

/-- As long as the destination has room for all that `k` spans can hold, another is looked at. -/
theorem lt_gatherVisits (g : RingGeometry) {spans k want : Nat} (hk : k < spans)
    (hwant : k * g.spanSize.toNat < want) (cursor : UInt64) (m : Memory) :
    k < gatherVisits g spans cursor want m := by
  induction k generalizing spans want cursor m with
  | zero =>
      obtain ⟨spans, rfl⟩ := Nat.exists_eq_succ_of_ne_zero (Nat.ne_of_gt hk)
      rw [gatherVisits_succ g spans cursor (by omega)]
      omega
  | succ k ih =>
      obtain ⟨spans, rfl⟩ := Nat.exists_eq_succ_of_ne_zero (Nat.ne_of_gt (Nat.zero_lt_of_lt hk))
      rw [Nat.succ_mul] at hwant
      rw [gatherVisits_succ g spans cursor (by omega)]
      have hoffset : (extent g m cursor).2 ≤ (extent g m cursor).1 := Nat.min_le_right _ _
      have hvalid : (extent g m cursor).1 ≤ g.spanSize.toNat := Nat.min_le_right _ _
      rw [if_pos (by omega)]
      have hrest : k * g.spanSize.toNat <
          want - min want ((extent g m cursor).1 - (extent g m cursor).2) := by omega
      rw [Nat.add_comm k 1]
      exact Nat.add_lt_add_left (ih (Nat.lt_of_succ_lt_succ hk) hrest _ _) 1

theorem visits_of_admits {r : Ring} (h : r.mapping.Admits r.memory consumerBusyAt)
    (want : Nat) :
    r.visits want = gatherVisits r.mapping.geometry
      ((r.memory.get64 writeAt).toNat - (r.memory.get64 readAt).toNat)
      (r.memory.get64 readAt) want r.memory := by
  obtain ⟨hreleased, hbusy⟩ := h
  unfold isReleased at hreleased
  unfold Ring.visits Ring.accesses callTraced readIntoTraced enterTraced takeFlag gatherVisits
  simp at hreleased
  simp [hreleased, hbusy, RingAccess.isCopyOut]

theorem visits_of_not_admits {r : Ring} (h : ¬ r.mapping.Admits r.memory consumerBusyAt)
    (want : Nat) : r.visits want = 0 := by
  unfold Admits isReleased at h
  unfold Ring.visits Ring.accesses callTraced readIntoTraced enterTraced takeFlag
  by_cases hclosed : r.mapping.isClosed
  · simp [hclosed]
  · by_cases hreleased : r.memory.get32 releasedAt = 0
    · have hbusy : r.memory.get32 consumerBusyAt ≠ 0 := by simpa [hclosed, hreleased] using h
      simp [hclosed, hreleased, hbusy, RingAccess.isCopyOut]
    · simp [hclosed, hreleased, RingAccess.isCopyOut]

end RingMapping

namespace Ring
open RingMapping

/-- Nothing that a call makes of the cursors goes wrong: in checked arithmetic the fill level and
the outcomes are the same, and a read looks at no span twice. -/
structure Withstands (r : Ring) : Prop where
  readable : readableChecked r.memory = some (RingMapping.readable r.memory)
  write : ∀ frame t,
    r.mapping.writeChecked r.memory frame t = some (r.mapping.write r.memory frame t)
  read : ∀ limit, r.mapping.readChecked r.memory limit = some (r.mapping.read r.memory limit)
  readInto : ∀ want,
    r.mapping.readIntoChecked r.memory want = some (r.mapping.readInto r.memory want)
  bounded : ∀ want, r.visits want ≤ r.mapping.geometry.spanCount.toNat

variable {r : Ring}

theorem readableChecked_iff (m : Memory) :
    readableChecked m = some (RingMapping.readable m) ↔ m.get64 readAt ≤ m.get64 writeAt := by
  unfold readableChecked minus? RingMapping.readable
  split <;> simp_all

/-- A read looks at as many spans as the cursors are apart, if its destination takes them. -/
theorem visits_le_spanCount_iff (r : Ring) :
    (∀ want, r.visits want ≤ r.mapping.geometry.spanCount.toNat) ↔
      (r.mapping.Admits r.memory consumerBusyAt → (r.memory.get64 writeAt).toNat ≤
        (r.memory.get64 readAt).toNat + r.mapping.geometry.spanCount.toNat) := by
  constructor
  · intro h hadmits
    by_contra hfar
    have hmany := h (r.mapping.geometry.spanCount.toNat * r.mapping.geometry.spanSize.toNat + 1)
    rw [visits_of_admits hadmits] at hmany
    have hspans : r.mapping.geometry.spanCount.toNat <
        (r.memory.get64 writeAt).toNat - (r.memory.get64 readAt).toNat := by omega
    have hmore := lt_gatherVisits r.mapping.geometry hspans (Nat.lt_succ_self _)
      (r.memory.get64 readAt) r.memory
    exact absurd hmany (Nat.not_le.mpr hmore)
  · intro h want
    by_cases hadmits : r.mapping.Admits r.memory consumerBusyAt
    · rw [visits_of_admits hadmits]
      have hspans := h hadmits
      exact Nat.le_trans (gatherVisits_le _ _ _ _ _) (by omega)
    · rw [visits_of_not_admits hadmits]
      exact Nat.zero_le _

/-- The cursors of a ring, whatever they hold, do no harm exactly when the read cursor is not
ahead, the write cursor is at most all spans ahead as far as reads get to look at it, and it is
not at its last value where a write would move it. -/
theorem withstands_iff_cursors_near (r : Ring) :
    let read := (r.memory.get64 readAt).toNat
    let write := (r.memory.get64 writeAt).toNat
    let spans := r.mapping.geometry.spanCount.toNat
    r.Withstands ↔ read ≤ write ∧
      (r.mapping.Admits r.memory consumerBusyAt → write ≤ read + spans) ∧
      (r.mapping.Admits r.memory producerBusyAt → write < read + spans →
        write + 1 < 2 ^ 64) := by
  intro read write spans
  constructor
  · intro h
    have hle := (readableChecked_iff r.memory).mp h.readable
    exact ⟨UInt64.le_iff_toNat_le.mp hle, r.visits_le_spanCount_iff.mp h.bounded,
      (writeChecked_iff r.mapping r.memory hle).mp h.write⟩
  · rintro ⟨hle, hfar, hlast⟩
    have hle := UInt64.le_iff_toNat_le.mpr hle
    exact {
      readable := (readableChecked_iff r.memory).mpr hle
      write := (writeChecked_iff r.mapping r.memory hle).mpr hlast
      read := readChecked_eq hle
      readInto := r.mapping.readIntoChecked_eq r.memory
      bounded := r.visits_le_spanCount_iff.mpr hfar }

end Ring

/-- A ring with one span of one byte in it, after the other side moved the cursors. -/
def straySpan (read write : UInt64) : Ring :=
  let g : RingGeometry := ⟨1, 1⟩
  ⟨{ geometry := g }, ((g.fresh.set64 (g.metaAt 0) 1).set64 readAt read).set64 writeAt write⟩

theorem fits_straySpan (read write : UInt64) : (straySpan read write).Fits ⟨1, 1⟩ where
  geometry := rfl
  size := by simp [straySpan, RingGeometry.fresh, Memory.zeros]

/-- Three spans ahead the one span is read three times, behind the read cursor the level would be
negative, and at its last value the write cursor cannot be moved. -/
theorem stray_cursors_do_harm :
    RingGeometry.check ⟨1, 1⟩ = .ok () ∧
      (∀ read write, (straySpan read write).Fits ⟨1, 1⟩) ∧
      (straySpan 0 3).visits 3 = 3 ∧
      ((straySpan 0 3).mapping.readInto (straySpan 0 3).memory 3).1.toOption.map (·.bytesRead) =
        some 3 ∧
      RingMapping.readableChecked (straySpan 1 0).memory = none ∧
      ((straySpan 1 0).mapping.writeChecked (straySpan 1 0).memory [7] 0).isNone ∧
      ((straySpan (-1) (-1)).mapping.writeChecked (straySpan (-1) (-1)).memory [7] 0).isNone ∧
      ¬ (straySpan 0 3).Withstands := by
  refine ⟨rfl, fits_straySpan, by decide +kernel, by decide +kernel, by decide +kernel,
    by decide +kernel, by decide +kernel, fun h => ?_⟩
  exact absurd (h.bounded 3) (by decide +kernel)

end Patchbay
