import Patchbay.Ring.Mapping

/-!
# Queues of frames

What a ring is for its users: a queue of frames with their times, of which the oldest may be
read in parts. Nothing here knows of cursors, spans or memory; of the geometry a queue uses only
how many frames it may hold and how long one may be.
-/
namespace Patchbay

structure QueuedFrame where
  bytes : List UInt8
  timestamp : UInt64
deriving DecidableEq, Repr

structure FrameQueue where
  /-- The oldest frame comes first. -/
  frames : List QueuedFrame := []
  /-- The bytes of the oldest frame that were read already. -/
  offset : Nat := 0
  isReleased : Bool := false
deriving DecidableEq, Repr

namespace FrameQueue

/-- All bytes that can still be read. -/
def unread (q : FrameQueue) : List UInt8 :=
  (q.frames.flatMap (·.bytes)).drop q.offset

/-- Appends a frame if it is not too long and fewer than all places are taken. -/
def write (g : RingGeometry) (q : FrameQueue) (frame : List UInt8) (timestamp : UInt64) :
    Except StreamError Unit × FrameQueue :=
  if frame.length > g.spanSize.toNat then
    (.error (.invalidParam
      s!"frame of {frame.length} bytes exceeds span size {g.spanSize}"), q)
  else if q.isReleased then (.error .released, q)
  else if q.frames.length < g.spanCount.toNat then
    (.ok (), { q with frames := q.frames ++ [⟨frame, timestamp⟩] })
  else (.error .bufferFull, q)

/-- Takes up to `limit` bytes of the oldest frame, which goes once it has been read to its end. -/
def read (q : FrameQueue) (limit : Nat) : Except StreamError SpanRead × FrameQueue :=
  if q.isReleased then (.error .released, q)
  else
    match q.frames with
    | [] => (.error .bufferEmpty, q)
    | f :: rest =>
      let data := (f.bytes.drop q.offset).take limit
      let seen := q.offset + data.length
      (.ok ⟨data, f.timestamp⟩,
        if seen < f.bytes.length then { q with offset := seen }
        else { q with frames := rest, offset := 0 })

/-- What is left of frames of which `offset` bytes were read, once `want` more bytes were asked
for. A frame goes when it has been read to its end and not before it was reached. -/
def leftAfter : (want : Nat) → List QueuedFrame → (offset : Nat) → List QueuedFrame × Nat
  | _, [], _ => ([], 0)
  | want, f :: rest, offset =>
    if want = 0 then (f :: rest, offset)
    else if offset + want < f.bytes.length then (f :: rest, offset + want)
    else leftAfter (want - (f.bytes.length - offset)) rest 0

def skip (q : FrameQueue) (want : Nat) : FrameQueue :=
  let left := leftAfter want q.frames q.offset
  { q with frames := left.1, offset := left.2 }

/-- Fills a destination of `want` bytes with unread bytes and then with silence. The time is that
of the first frame touched. -/
def readInto (q : FrameQueue) (want : Nat) : Except StreamError FilledRead × FrameQueue :=
  if q.isReleased then (.error .released, q)
  else
    let got := q.unread.take want
    let time := if want = 0 then none else q.frames.head?.map (·.timestamp)
    (.ok ⟨got ++ List.replicate (want - got.length) 0, got.length, got.length < want, time⟩,
      q.skip want)

def flush (q : FrameQueue) : Except StreamError Unit × FrameQueue :=
  if q.isReleased then (.error .released, q) else (.ok (), { q with frames := [], offset := 0 })

def release (q : FrameQueue) : FrameQueue :=
  { q with isReleased := true }

/-- The length of the oldest frame. -/
def headLength : List QueuedFrame → Nat
  | [] => 0
  | f :: _ => f.bytes.length

@[simp]
theorem isReleased_write (g : RingGeometry) (q : FrameQueue) (frame : List UInt8) (t : UInt64) :
    (q.write g frame t).2.isReleased = q.isReleased := by
  unfold write
  repeat (split <;> try rfl)

@[simp]
theorem isReleased_read (q : FrameQueue) (limit : Nat) :
    (q.read limit).2.isReleased = q.isReleased := by
  unfold read
  split
  · rfl
  · split
    · rfl
    · dsimp only
      split <;> rfl

@[simp]
theorem isReleased_readInto (q : FrameQueue) (want : Nat) :
    (q.readInto want).2.isReleased = q.isReleased := by
  unfold readInto
  split <;> rfl

@[simp]
theorem isReleased_flush (q : FrameQueue) : q.flush.2.isReleased = q.isReleased := by
  unfold flush
  split <;> rfl

theorem headLength_le_append (fs rest : List QueuedFrame) :
    headLength fs ≤ headLength (fs ++ rest) := by
  cases fs with
  | nil => exact Nat.zero_le _
  | cons f fs => exact Nat.le_refl _

theorem leftAfter_zero {fs : List QueuedFrame} {offset : Nat} (h : offset ≤ headLength fs) :
    leftAfter 0 fs offset = (fs, offset) := by
  cases fs with
  | nil =>
      have h₀ : offset = 0 := Nat.le_zero.mp h
      rw [leftAfter, h₀]
  | cons f rest => rw [leftAfter, if_pos rfl]

theorem unread_cons (f : QueuedFrame) (rest : List QueuedFrame) {offset : Nat} (b : Bool)
    (h : offset ≤ f.bytes.length) :
    unread ⟨f :: rest, offset, b⟩ = f.bytes.drop offset ++ unread ⟨rest, 0, b⟩ := by
  simp only [unread, List.flatMap_cons, List.drop_zero]
  rw [List.drop_append_of_le_length h]

theorem skip_zero (q : FrameQueue) (h : q.offset ≤ headLength q.frames) : q.skip 0 = q := by
  rw [skip, leftAfter_zero h]

theorem skip_nil (want : Nat) (b : Bool) : skip ⟨[], 0, b⟩ want = ⟨[], 0, b⟩ := by
  rw [skip, leftAfter]

variable {f : QueuedFrame} {offset want : Nat}

theorem skip_of_lt (hwant : want ≠ 0) (h : offset + want < f.bytes.length)
    (rest : List QueuedFrame) (b : Bool) :
    skip ⟨f :: rest, offset, b⟩ want = ⟨f :: rest, offset + want, b⟩ := by
  rw [skip, leftAfter, if_neg hwant, if_pos h]

/-- The oldest frame is used up, and the others have to do for what it lacks. -/
theorem skip_of_le (hwant : want ≠ 0) (h : f.bytes.length ≤ offset + want)
    (rest : List QueuedFrame) (b : Bool) :
    skip ⟨f :: rest, offset, b⟩ want = skip ⟨rest, 0, b⟩ (want - (f.bytes.length - offset)) := by
  rw [skip, skip, leftAfter, if_neg hwant, if_neg (Nat.not_lt_of_le h)]

end FrameQueue
end Patchbay
