import Patchbay.Stream.Config
import Patchbay.Ring.Memory

/-!
# How a ring lies in memory

A ring is a header of 64 bytes, then 16 bytes for each span (its length and its timestamp), then
the data of the spans, all of one size. Cursors count spans and never turn back; as the number of
spans is a power of two, the low bits of a cursor name its span.
-/
namespace Patchbay

structure RingGeometry where
  spanCount : UInt32
  spanSize : UInt32
deriving DecidableEq, Repr

namespace RingGeometry

/-- The first eight bytes of every ring, `AUDIODRB`. -/
def magic : UInt64 :=
  UInt64.ofNat (LittleEndian.value [0x41, 0x55, 0x44, 0x49, 0x4f, 0x44, 0x52, 0x42])

def headerBytes : Nat := 64
def metaBytes : Nat := 16

def magicAt : Nat := 0
def spanCountAt : Nat := 8
def spanSizeAt : Nat := 12
def writeAt : Nat := 16
def readAt : Nat := 24
def readOffsetAt : Nat := 32
def releasedAt : Nat := 40
def producerBusyAt : Nat := 44
def consumerBusyAt : Nat := 48

def check (g : RingGeometry) : Except StreamError Unit :=
  if !isPowerOfTwo g.spanCount.toNat then
    .error (.invalidParam s!"span count {g.spanCount} is not a power of two")
  else if g.spanSize = 0 then .error (.invalidParam "span size is zero")
  else .ok ()

/-- The length of the whole memory. -/
def mappedBytes (g : RingGeometry) : Nat :=
  headerBytes + g.spanCount.toNat * (metaBytes + g.spanSize.toNat)

/-- Selects the low bits of a cursor. -/
def mask (g : RingGeometry) : UInt64 :=
  g.spanCount.toUInt64 - 1

def index (g : RingGeometry) (cursor : UInt64) : Nat :=
  (cursor &&& g.mask).toNat

/-- Where the length of a span stands; its timestamp is the next word. -/
def metaAt (g : RingGeometry) (cursor : UInt64) : Nat :=
  headerBytes + g.index cursor * metaBytes

def dataAt (g : RingGeometry) (cursor : UInt64) : Nat :=
  headerBytes + g.spanCount.toNat * metaBytes + g.index cursor * g.spanSize.toNat

/-- The memory of a fresh ring. -/
def fresh (g : RingGeometry) : Memory :=
  (((Memory.zeros g.mappedBytes).set32 spanCountAt g.spanCount).set32 spanSizeAt g.spanSize).set64
    magicAt magic

end RingGeometry
end Patchbay
