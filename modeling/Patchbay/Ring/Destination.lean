import Patchbay.Ring.Mapping

/-!
# Reads into a destination

A caller that reads again and again keeps one destination and has it filled in place. Each chunk
is copied behind those before it, and what is still open at the end is filled with silence. A read
that is refused does not touch the destination.
-/
namespace Patchbay

/-- A destination that is being filled from the front. -/
@[ext]
structure Destination where
  bytes : List UInt8
  /-- The bytes that have been copied so far. -/
  filled : Nat := 0
  /-- The time of the first span touched. -/
  timestamp : Option UInt64 := none
deriving DecidableEq, Repr

namespace Destination

/-- Copies a chunk behind what is there. Only the first time is kept. -/
def put (d : Destination) (chunk : List UInt8) (time : Option UInt64) : Destination where
  bytes := d.bytes.take d.filled ++ chunk ++ d.bytes.drop (d.filled + chunk.length)
  filled := d.filled + chunk.length
  timestamp := d.timestamp <|> time

/-- The destination with silence where nothing was copied. -/
def silenced (d : Destination) : List UInt8 :=
  d.bytes.take d.filled ++ List.replicate (d.bytes.length - d.filled) 0

end Destination

/-- What a reader is told of a read, besides what stands in the destination. -/
structure ReadOutcome where
  bytesRead : Nat
  underrun : Bool
  timestamp : Option UInt64
deriving DecidableEq, Repr

def FilledRead.outcome (r : FilledRead) : ReadOutcome :=
  ⟨r.bytesRead, r.underrun, r.timestamp⟩

namespace RingMapping
open RingGeometry

/-- Copies from the spans between two cursors until the destination is full. -/
def pour (g : RingGeometry) (write : UInt64) (cursor : UInt64) (d : Destination) (m : Memory) :
    Destination × Memory :=
  if _h : d.filled < d.bytes.length ∧ cursor < write then
    let e := extent g m cursor
    let n := min (d.bytes.length - d.filled) (e.1 - e.2)
    let d' := d.put (m.slice (g.dataAt cursor + e.2) n) (some (m.get64 (g.metaAt cursor + 8)))
    let m' := advance m cursor (e.2 + n) e.1
    if e.2 + n ≥ e.1 then pour g write (cursor + 1) d' m' else (d', m')
  else (d, m)
termination_by write.toNat - cursor.toNat
decreasing_by
  have hlt : cursor.toNat < write.toNat := UInt64.lt_iff_toNat_lt.mp _h.2
  have hw : write.toNat < 2 ^ 64 := write.toNat_lt
  have hs : (cursor + 1).toNat = cursor.toNat + 1 := by
    rw [UInt64.toNat_add]
    simp only [UInt64.toNat_one]
    omega
  omega

/-- Fills a destination in place. -/
def readOnto (r : RingMapping) (m : Memory) (dest : List UInt8) :
    Except StreamError ReadOutcome × List UInt8 × Memory :=
  let filling := r.enter m consumerBusyAt "read" fun _ =>
    let (d, m') := pour r.geometry (m.get64 writeAt) (m.get64 readAt) { bytes := dest } m
    (.ok d, m')
  match filling with
  | (.ok d, m) => (.ok ⟨d.filled, d.filled < dest.length, d.timestamp⟩, d.silenced, m)
  | (.error e, m) => (.error e, dest, m)

end RingMapping
end Patchbay
