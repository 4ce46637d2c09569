import Patchbay.Ring.Geometry

/-!
# Rings of spans

A ring passes frames from one producer to one consumer through memory that both have mapped.
All shared state, cursors and flags included, is in that memory; a mapping adds only its
geometry, the file it came from and whether it was released itself. The other side may write
anything into the memory between two calls, so lengths and offsets are cut to the span they
belong to before they are used.
-/
namespace Patchbay

/-- One side's mapping of a ring. -/
structure RingMapping where
  geometry : RingGeometry
  path : Option String := none
  /-- The side that made the ring removes its file. -/
  isOwner : Bool := true
  isClosed : Bool := false
deriving DecidableEq, Repr

/-- One read from the oldest span. -/
structure SpanRead where
  data : List UInt8
  timestamp : UInt64
deriving DecidableEq, Repr

/-- A read that fills a whole destination. -/
structure FilledRead where
  /-- The destination: what was read, then silence. -/
  data : List UInt8
  bytesRead : Nat
  underrun : Bool
  /-- The time of the first span touched. -/
  timestamp : Option UInt64
deriving DecidableEq, Repr

namespace RingMapping
open RingGeometry

variable {α : Type}

/-- Released through this mapping or by the other side. -/
def isReleased (r : RingMapping) (m : Memory) : Bool :=
  r.isClosed || m.get32 releasedAt ≠ 0

/-- Runs `body` as the only user of the side whose flag is at `busyAt`. The flag is back at zero
when the body ends, so it is written only where the side is found taken. -/
def enter (r : RingMapping) (m : Memory) (busyAt : Nat) (op : String)
    (body : Unit → Except StreamError α × Memory) : Except StreamError α × Memory :=
  if r.isReleased m then (.error .released, m)
  else if m.get32 busyAt ≠ 0 then
    (.error (.illegalState op "concurrent access"), m.set32 busyAt 1)
  else body ()

/-- The read and write cursors. -/
def cursors (m : Memory) : UInt64 × UInt64 :=
  (m.get64 readAt, m.get64 writeAt)

/-- Spans that hold unread data. -/
def readable (m : Memory) : UInt64 :=
  m.get64 writeAt - m.get64 readAt

/-- Puts one frame into the next free span. A full ring stays as it is. -/
def write (r : RingMapping) (m : Memory) (frame : List UInt8) (timestamp : UInt64) :
    Except StreamError Unit × Memory :=
  let g := r.geometry
  if frame.length > g.spanSize.toNat then
    (.error (.invalidParam
      s!"frame of {frame.length} bytes exceeds span size {g.spanSize}"), m)
  else
    r.enter m producerBusyAt "write" fun _ =>
      let w := m.get64 writeAt
      if w - m.get64 readAt ≥ g.spanCount.toUInt64 then (.error .bufferFull, m)
      else
        let m := m.blit (g.dataAt w) frame
        let m := m.set64 (g.metaAt w) (UInt64.ofNat frame.length)
        let m := m.set64 (g.metaAt w + 8) timestamp
        (.ok (), m.set64 writeAt (w + 1))

/-- The valid bytes of a span and those of them already read, both cut to what is there. -/
def extent (g : RingGeometry) (m : Memory) (cursor : UInt64) : Nat × Nat :=
  let valid := min (m.get64 (g.metaAt cursor)).toNat g.spanSize.toNat
  (valid, min (m.get64 readOffsetAt).toNat valid)

/-- Notes that `consumed` of the `valid` bytes of the span at `cursor` were read; a span that is
read to its end is left behind. -/
def advance (m : Memory) (cursor : UInt64) (consumed valid : Nat) : Memory :=
  if consumed ≥ valid then (m.set64 readOffsetAt 0).set64 readAt (cursor + 1)
  else m.set64 readOffsetAt (UInt64.ofNat consumed)

/-- Reads up to `limit` bytes of the oldest span. -/
def read (r : RingMapping) (m : Memory) (limit : Nat) : Except StreamError SpanRead × Memory :=
  r.enter m consumerBusyAt "read" fun _ =>
    let cursor := m.get64 readAt
    if cursor = m.get64 writeAt then (.error .bufferEmpty, m)
    else
      let (valid, offset) := extent r.geometry m cursor
      let n := min limit (valid - offset)
      let data := m.slice (r.geometry.dataAt cursor + offset) n
      (.ok ⟨data, m.get64 (r.geometry.metaAt cursor + 8)⟩, advance m cursor (offset + n) valid)

/-- Takes up to `want` bytes from the spans between two cursors, with the time of the first. -/
def gather (g : RingGeometry) (write : UInt64) (cursor : UInt64) (want : Nat) (m : Memory) :
    List UInt8 × Option UInt64 × Memory :=
  if _h : want ≠ 0 ∧ cursor < write then
    let e := extent g m cursor
    let n := min want (e.1 - e.2)
    let chunk := m.slice (g.dataAt cursor + e.2) n
    let time := m.get64 (g.metaAt cursor + 8)
    let m' := advance m cursor (e.2 + n) e.1
    if e.2 + n ≥ e.1 then
      let next := gather g write (cursor + 1) (want - n) m'
      (chunk ++ next.1, some time, next.2.2)
    else (chunk, some time, m')
  else ([], none, m)
termination_by write.toNat - cursor.toNat
decreasing_by
  have hlt : cursor.toNat < write.toNat := UInt64.lt_iff_toNat_lt.mp _h.2
  have hw : write.toNat < 2 ^ 64 := write.toNat_lt
  have hs : (cursor + 1).toNat = cursor.toNat + 1 := by
    rw [UInt64.toNat_add]
    simp only [UInt64.toNat_one]
    omega
  omega

/-- Fills a destination of `want` bytes from as many spans as it takes; what is missing is
silence. -/
def readInto (r : RingMapping) (m : Memory) (want : Nat) : Except StreamError FilledRead × Memory :=
  r.enter m consumerBusyAt "read" fun _ =>
    let (got, time, m') := gather r.geometry (m.get64 writeAt) (m.get64 readAt) want m
    (.ok ⟨got ++ List.replicate (want - got.length) 0, got.length, got.length < want, time⟩, m')

/-- Drops all unread data. -/
def flush (r : RingMapping) (m : Memory) : Except StreamError Unit × Memory :=
  r.enter m consumerBusyAt "flush" fun _ =>
    (.ok (), (m.set64 readOffsetAt 0).set64 readAt (m.get64 writeAt))

/-- Closes the ring for both sides. -/
def release (r : RingMapping) (m : Memory) : RingMapping × Memory :=
  if r.isClosed then (r, m) else ({ r with isClosed := true }, m.set32 releasedAt 1)

/-- The file that goes away with this mapping. -/
def ownFile? (r : RingMapping) : Option String :=
  if r.isOwner then r.path else none

/-- The form used in reports. -/
def describe (r : RingMapping) (m : Memory) : String :=
  let path := match r.path with
    | some p => s!"Some(\"{p}\")"
    | none => "None"
  "SharedRingBuffer \x7b " ++ s!"span_count: {r.geometry.spanCount}, span_size_bytes: " ++
    s!"{r.geometry.spanSize}, mapped_bytes: {m.size}, read: {m.get64 readAt}, write: " ++
    s!"{m.get64 writeAt}, released: {r.isReleased m}, path: {path}" ++ " \x7d"

/-- Maps a file that some other side made. -/
def ofFile (path : String) (m : Memory) : Except StreamError RingMapping :=
  if m.size < headerBytes then .error (.map s!"{path}: truncated header")
  else if m.get64 magicAt ≠ magic then .error (.map s!"{path}: not a ring buffer")
  else
    let g : RingGeometry := ⟨m.get32 spanCountAt, m.get32 spanSizeAt⟩
    match g.check with
    | .error e => .error e
    | .ok () =>
      if m.size ≠ g.mappedBytes then
        .error (.map s!"{path}: mapped {m.size} bytes, geometry needs {g.mappedBytes}")
      else .ok { geometry := g, path := some path, isOwner := false }

end RingMapping

/-- The mapping of the side that made a ring, with the memory. -/
structure Ring where
  mapping : RingMapping
  memory : Memory
deriving Repr

namespace Ring
variable {α : Type}

/-- Applies an operation of a mapping. -/
def apply (r : Ring) (op : RingMapping → Memory → Except StreamError α × Memory) :
    Except StreamError α × Ring :=
  let (a, m) := op r.mapping r.memory
  (a, { r with memory := m })

def isReleased (r : Ring) : Bool :=
  r.mapping.isReleased r.memory

def release (r : Ring) : Ring :=
  let (mapping, memory) := r.mapping.release r.memory
  ⟨mapping, memory⟩

end Ring
end Patchbay
