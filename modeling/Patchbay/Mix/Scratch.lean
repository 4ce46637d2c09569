import Patchbay.Mix.Mixer

/-!
# Mixing in place

A mixer keeps its buffers from one cycle to the next. The bytes of a session are read into one of
them and decoded into another, over whatever was left there, and are added to a third, which alone
is silenced before a cycle. The sum is written over the frame of the cycle before.
-/
namespace Patchbay

/-- The buffers of a mixer. -/
structure Scratch (τ : Type) where
  /-- The sum. -/
  mix : List τ
  /-- The samples of one session. -/
  samples : List τ
  /-- The bytes of one session. -/
  input : List UInt8
  /-- What is handed over. -/
  frame : List UInt8

/-- A mix that is made in the buffers. -/
structure Draft (τ : Type) where
  registry : Registry
  scratch : Scratch τ
  /-- The most bytes that a session had. -/
  longest : Nat := 0

/-- Puts values over the beginning of a buffer, as many as there is room for. -/
def overwrite {α : Type} (buffer values : List α) : List α :=
  values.take buffer.length ++ buffer.drop values.length

namespace Blend
variable {τ : Type}

def decodeOnto (b : Blend τ) (samples : List τ) (bytes : List UInt8) : List τ :=
  overwrite samples ((pieces b.width bytes).map b.decode)

/-- Writes samples over a frame as long as a whole one has room. -/
def encodeOnto (b : Blend τ) : List τ → List UInt8 → List UInt8
  | x :: mix, frame =>
    if frame.length < b.width then frame
    else b.encode x ++ encodeOnto b mix (frame.drop b.width)
  | [], frame => frame

end Blend

namespace Scratch
variable {τ : Type}

/-- The buffers of a new mixer. -/
def blank (b : Blend τ) (info : StreamFormat) (spanFrames : UInt32) : Scratch τ :=
  let samples := spanFrames.toNat * info.channels.toNat
  let spanBytes := (spanFrames * UInt32.ofNat info.bytesPerFrame).toNat
  { mix := b.quiet samples
    samples := b.quiet samples
    input := List.replicate spanBytes 0
    frame := List.replicate spanBytes 0 }

def silenced (b : Blend τ) (s : Scratch τ) : Scratch τ :=
  { s with mix := s.mix.map fun _ => b.silence }

/-- Adds the first `n` bytes of the input to the mix. -/
def blend (b : Blend τ) (n : Nat) (gain : Single) (s : Scratch τ) : Scratch τ :=
  let samples := b.decodeOnto s.samples s.input
  let heard := (samples.take (n / b.width)).map fun x => b.scale x gain
  { s with samples := samples, mix := b.addAll s.mix heard }

end Scratch

namespace Mixer
variable {σ τ : Type}

/-- Takes one span from a session. The input is filled also for a session without gain. -/
def gatherOnto (b : Blend τ) (d : Draft τ) (s : Session) : Draft τ :=
  match d.registry.any? s.id with
  | none => d
  | some found =>
    let (answer, input, found) := found.readOnto d.scratch.input
    let scratch := { d.scratch with input := input }
    let registry := d.registry.store found
    match answer with
    | .error _ => { d with registry := registry, scratch := scratch }
    | .ok got =>
      let gain := s.controls.gain
      { registry := registry
        longest := max d.longest got.bytesRead
        scratch := if gain.isZero then scratch else scratch.blend b got.bytesRead gain }

/-- Mixes one span of each of the sessions. There is no frame if none of them had data; without a
session not even the mix is silenced. -/
def composeOnto (b : Blend τ) (scratch : Scratch τ) (reg : Registry) (sessions : List Session) :
    Option (List UInt8) × Scratch τ × Registry :=
  if sessions.isEmpty then (none, scratch, reg)
  else
    let d := sessions.foldl (gatherOnto b) { registry := reg, scratch := scratch.silenced b }
    if d.longest = 0 then (none, d.scratch, d.registry)
    else
      let frame := b.encodeOnto d.scratch.mix d.scratch.frame
      (some frame, { d.scratch with frame := frame }, d.registry)

/-- The frame that a cycle hands over. -/
def frameOnto? (b : Blend τ) (scratch : Scratch τ) (m : Mixer σ) (reg : Registry) :
    Option (List UInt8) :=
  (composeOnto b scratch reg ((m.routes.refresh reg).2.running reg)).1

/-- One cycle in the buffers, with the answer of the output. -/
def cycleOnto [Playback σ] (b : Blend τ) (scratch : Scratch τ) (m : Mixer σ) (reg : Registry) :
    Except DeviceError Nat × Scratch τ × Mixer σ × Registry :=
  let m := { m with routes := (m.routes.refresh reg).2 }
  match composeOnto b scratch reg (m.routes.running reg) with
  | (none, scratch, reg) => (.ok 0, scratch, m, reg)
  | (some frame, scratch, reg) =>
    let (a, output) := Playback.render m.output frame
    (a, scratch, { m with output := output }, reg)

end Mixer
end Patchbay
