import Patchbay.Fault
import Patchbay.Named
import Patchbay.Stream.Intent

/-!
# What a client asks for

Sample formats, stream formats and the configuration a client states for a stream. A
configuration is sound if its spans divide the whole into a power of two of equal parts.
-/
namespace Patchbay

inductive SampleFormat where
  | u8
  | s16le
  | s24le
  | s32le
  | f32le
deriving DecidableEq, Repr, Inhabited

namespace SampleFormat

def all : List SampleFormat := [.u8, .s16le, .s24le, .s32le, .f32le]

def name : SampleFormat → String
  | .u8 => "U8"
  | .s16le => "S16Le"
  | .s24le => "S24Le"
  | .s32le => "S32Le"
  | .f32le => "F32Le"

def code : SampleFormat → Int32
  | .u8 => 8
  | .s16le => 16
  | .s24le => 24
  | .s32le => 32
  | .f32le => 33

def ofCode? (c : Int32) : Option SampleFormat :=
  all.find? (·.code == c)

def bytesPerSample : SampleFormat → Nat
  | .u8 => 1
  | .s16le => 2
  | .s24le => 3
  | .s32le | .f32le => 4

theorem ofCode?_code (f : SampleFormat) : ofCode? f.code = some f := by
  cases f <;> decide

end SampleFormat

instance : Named SampleFormat := ⟨SampleFormat.all, SampleFormat.name⟩

/-- The shape of a stream of samples. -/
structure StreamFormat where
  sampleRate : UInt32 := 48000
  channels : UInt16 := 2
  format : SampleFormat := .s16le
deriving DecidableEq, Repr

/-- A frame holds one sample of every channel. -/
def StreamFormat.bytesPerFrame (f : StreamFormat) : Nat :=
  f.channels.toNat * f.format.bytesPerSample

theorem StreamFormat.bytesPerFrame_lt (f : StreamFormat) : f.bytesPerFrame < 0x40000 := by
  have hc : f.channels.toNat < 65536 := f.channels.toNat_lt
  have hb : f.format.bytesPerSample ≤ 4 := by cases f.format <;> decide
  calc f.channels.toNat * f.format.bytesPerSample ≤ f.channels.toNat * 4 :=
        Nat.mul_le_mul_left _ hb
    _ < 0x40000 := by omega

/-- All that a client states when it asks for a stream. -/
structure StreamConfig where
  intent : StreamIntent
  info : StreamFormat
  uid : Int32
  totalFrames : UInt32
  spanFrames : UInt32
deriving DecidableEq, Repr

/-- Whether `n` is a power of two. -/
def isPowerOfTwo (n : Nat) : Bool :=
  n ≠ 0 && 1 <<< n.log2 = n

namespace StreamConfig

def spanCount (c : StreamConfig) : UInt32 :=
  c.totalFrames / c.spanFrames

def check (c : StreamConfig) : Except StreamError Unit :=
  if c.totalFrames = 0 || c.spanFrames = 0 then
    .error (.invalidParam "total and span size must be non-zero")
  else if c.totalFrames % c.spanFrames ≠ 0 then
    .error (.invalidParam
      s!"total size {c.totalFrames} is not a multiple of span size {c.spanFrames}")
  else if !isPowerOfTwo c.spanCount.toNat then
    .error (.invalidParam s!"span count {c.spanCount} is not a power of two")
  else if c.info.bytesPerFrame = 0 then
    .error (.invalidParam "zero channels")
  else .ok ()

/-- The bytes of one span, if 32 bits can hold their number. -/
def spanBytes? (c : StreamConfig) : Option UInt32 :=
  let n := c.spanFrames.toNat * c.info.bytesPerFrame
  if n < UInt32.size then some (UInt32.ofNat n) else none

end StreamConfig
end Patchbay
