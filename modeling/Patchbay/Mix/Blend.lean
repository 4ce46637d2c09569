import Patchbay.Number.LittleEndian
import Patchbay.Number.Single
import Patchbay.Stream.Config

/-!
# Blending samples

The arithmetic of a mix: how a sample is read from its bytes, scaled by a gain, added to others
and written back. Mixing itself treats a blend as a black box. A blend in single precision exists
for sample formats of two and of four bytes.
-/
namespace Patchbay

/-- Arithmetic on samples of type `τ`. -/
structure Blend (τ : Type) where
  /-- The bytes of one sample. -/
  width : Nat
  silence : τ
  decode : List UInt8 → τ
  scale : τ → Single → τ
  add : τ → τ → τ
  encode : τ → List UInt8

/-- The whole pieces of `width` bytes; a shorter rest is left out. -/
def pieces (width : Nat) (bs : List UInt8) : List (List UInt8) :=
  if _h : width = 0 ∨ bs.length < width then []
  else bs.take width :: pieces width (bs.drop width)
termination_by bs.length
decreasing_by
  simp only [List.length_drop]
  omega

namespace Blend
variable {τ : Type}

/-- Adds samples to the beginning of a mix. -/
def addAll (b : Blend τ) : List τ → List τ → List τ
  | m :: mix, s :: samples => b.add m s :: addAll b mix samples
  | mix, _ => mix

/-- Adds scaled audio to the beginning of a mix. -/
def mixIn (b : Blend τ) (mix : List τ) (data : List UInt8) (gain : Single) : List τ :=
  b.addAll mix ((pieces b.width data).map fun p => b.scale (b.decode p) gain)

/-- A mix of `n` silent samples. -/
def quiet (b : Blend τ) (n : Nat) : List τ :=
  List.replicate n b.silence

def encodeAll (b : Blend τ) (mix : List τ) : List UInt8 :=
  mix.flatMap b.encode

/-- A number between -32768 and 32767 from its two bytes. -/
def signed16 (bs : List UInt8) : Int :=
  let n := LittleEndian.value bs
  if n < 0x8000 then n else n - 0x10000

/-- Samples cut to the interval from minus one to one. -/
def limited (s : Single) : Single :=
  s.clamp Single.minusOne Single.one

/-- Two bytes stand for a share of 32767; what is written is rounded. -/
def word16 : Blend Single where
  width := 2
  silence := Single.zero
  decode bs :=
    let n := signed16 bs
    Single.ofRatio (n < 0) n.natAbs 32767
  scale := Single.mul
  add := Single.add
  encode s := LittleEndian.bytes 2 (((limited s).mul (Single.ofInt 32767)).round % 0x10000).toNat

/-- Four bytes are the number itself. -/
def float32 : Blend Single where
  width := 4
  silence := Single.zero
  decode bs := ⟨UInt32.ofNat (LittleEndian.value bs)⟩
  scale := Single.mul
  add := Single.add
  encode s := LittleEndian.bytes 4 (limited s).bits.toNat

end Blend

/-- The blend of a sample format, if it can be mixed. -/
def SampleFormat.blend? : SampleFormat → Option (Blend Single)
  | .s16le => some .word16
  | .f32le => some .float32
  | _ => none

end Patchbay
