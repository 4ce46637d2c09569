import Patchbay.Ring.Geometry

/-!
# Sizes in words

How the bytes of spans and rings are counted in words of 32 and 64 bits. The bytes of a frame are
a word of 32 bits. A mixer multiplies in 32 bits and widens the product, a recorder widens the
factors and multiplies then. The length of a ring is counted in 64 bits and refused if they cannot
hold it.
-/
namespace Patchbay

/-- The number as a word, if 64 bits can hold it. -/
def word64? (n : Nat) : Option UInt64 :=
  if n < UInt64.size then some (UInt64.ofNat n) else none

namespace StreamFormat

/-- The bytes of a frame. -/
def frameSize (f : StreamFormat) : UInt32 :=
  f.channels.toUInt32 * UInt32.ofNat f.format.bytesPerSample

/-- The bytes of a span of a mixer. -/
def mixedSize (f : StreamFormat) (frames : UInt32) : UInt64 :=
  (frames * f.frameSize).toUInt64

/-- The bytes of a span of a recorder. -/
def recordedSize (f : StreamFormat) (frames : UInt32) : UInt64 :=
  frames.toUInt64 * f.frameSize.toUInt64

end StreamFormat

/-- Checks a geometry and counts the bytes of its memory. -/
def RingGeometry.measure (g : RingGeometry) : Except StreamError UInt64 :=
  match g.check with
  | .error e => .error e
  | .ok () =>
    let span := UInt64.ofNat metaBytes + g.spanSize.toUInt64
    match (word64? (g.spanCount.toNat * span.toNat)).bind
        fun spans => word64? (spans.toNat + headerBytes) with
    | some length => .ok length
    | none => .error (.invalidParam "buffer geometry overflows")

end Patchbay
