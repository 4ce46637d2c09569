import Patchbay.Adapter.Jack
import Patchbay.Mix.Blend
import Patchbay.Mix.RouteCache

/-!
# Mixers

A mixer plays to one output device. In each cycle it takes one span from every running session
that is routed to the device, scales and adds them, and hands the sum over as one frame.
-/
namespace Patchbay

structure Mixer (σ : Type) where
  device : Device
  info : StreamFormat
  /-- The bytes of a frame that is handed over. -/
  spanBytes : Nat
  output : σ
  routes : RouteCache

/-- A mix in the making. -/
structure Mixdown (τ : Type) where
  registry : Registry
  mix : List τ
  /-- The most bytes that a session had. -/
  longest : Nat := 0

namespace Mixer
variable {σ τ : Type}

/-- A mixer, for a format that can be mixed. The bytes of a span are counted in 32 bits. -/
def create (device : Device) (info : StreamFormat) (spanFrames : UInt32) (output : σ) :
    Except DeviceError (Mixer σ) :=
  if info.format.blend?.isNone then
    .error (.initializationFailed s!"endpoint cannot mix {info.format.name}")
  else
    .ok {
      device := device
      info := info
      spanBytes := (spanFrames * UInt32.ofNat info.bytesPerFrame).toNat
      output := output
      routes := { device := device, role := .output, info := info } }

/-- Takes one span from a session. A session that refuses adds nothing, and one without gain is
drained but not heard. -/
def gather (b : Blend τ) (spanBytes : Nat) (d : Mixdown τ) (s : Session) : Mixdown τ :=
  match d.registry.apply s.id (·.read spanBytes) with
  | (.error _, reg) => { d with registry := reg }
  | (.ok got, reg) =>
    let gain := s.controls.gain
    { registry := reg
      longest := max d.longest got.bytesRead
      mix := if gain.isZero then d.mix else b.mixIn d.mix (got.data.take got.bytesRead) gain }

/-- The mix of one span of each of the given sessions. -/
def mixdown (b : Blend τ) (spanBytes : Nat) (reg : Registry) (sessions : List Session) :
    Mixdown τ :=
  sessions.foldl (gather b spanBytes)
    { registry := reg, mix := b.quiet (spanBytes / b.width) }

variable [Playback σ]

/-- One cycle, with the answer of the output. Nothing is played and the answer is zero if no
session had data. -/
def cycleWith (b : Blend τ) (m : Mixer σ) (reg : Registry) :
    Except DeviceError Nat × Mixer σ × Registry :=
  let m := { m with routes := (m.routes.refresh reg).2 }
  let d := mixdown b m.spanBytes reg (m.routes.running reg)
  if d.longest = 0 then (.ok 0, m, d.registry)
  else
    let (n, output) := Playback.render m.output (b.encodeAll d.mix)
    (n, { m with output := output }, d.registry)

def cycle (m : Mixer σ) (reg : Registry) : Except DeviceError Nat × Mixer σ × Registry :=
  match m.info.format.blend? with
  | none => (.ok 0, m, reg)
  | some b => m.cycleWith b reg

/-- Cycles while `goOn` holds, but at most `n` times. -/
def cycles (goOn : Registry → Bool) : Nat → Mixer σ → Registry → Mixer σ × Registry
  | 0, m, reg => (m, reg)
  | n + 1, m, reg =>
    if goOn reg then
      let (_, m, reg) := m.cycle reg
      cycles goOn n m reg
    else (m, reg)

/-- Starts the output, cycles and stops it. An output that does not start plays nothing. -/
def run (goOn : Registry → Bool) (n : Nat) (m : Mixer σ) (reg : Registry) : Mixer σ × Registry :=
  match Playback.start m.output with
  | (.error _, output) => ({ m with output := output }, reg)
  | (.ok (), output) =>
    let (m, reg) := cycles goOn n { m with output := output } reg
    ({ m with output := (Playback.stop m.output).2 }, reg)

end Mixer
end Patchbay
