import Patchbay.Adapter.Catalog

/-!
# Jacks

A mixer plays to anything that can be started and stopped and takes frames, and a recorder
captures from anything that can be started and stopped and fills spans. A jack is such a thing.
-/
namespace Patchbay

/-- What a mixer can play to. -/
class Playback (σ : Type) where
  start : σ → Except DeviceError Unit × σ
  stop : σ → Except DeviceError Unit × σ
  /-- Plays one frame and answers how many bytes were taken. -/
  render : σ → List UInt8 → Except DeviceError Nat × σ

/-- What a recorder can capture from. -/
class Recording (σ : Type) where
  start : σ → Except DeviceError Unit × σ
  stop : σ → Except DeviceError Unit × σ
  /-- Fills a span and answers how many bytes of it count. -/
  capture : σ → List UInt8 → Except DeviceError (Nat × List UInt8) × σ

namespace Adapter

/-- A sink and a source, and what they reach. -/
structure Jack where
  sink : Sink := .null {}
  source : Source := .null false
  world : World := {}
deriving DecidableEq, Repr

instance : Playback Jack where
  start j :=
    let (r, s, w) := j.sink.start j.world
    (r, { j with sink := s, world := w })
  stop j := (.ok (), { j with sink := j.sink.stop })
  render j data :=
    let (r, s, w) := j.sink.render j.world data
    (r, { j with sink := s, world := w })

instance : Recording Jack where
  start j := (.ok (), { j with source := j.source.start })
  stop j := (.ok (), { j with source := j.source.stop })
  capture j span :=
    let (r, s, w) := j.source.capture j.world span.length
    (r.map fun data => (data.length, data), { j with source := s, world := w })

/-- A loopback sink and its monitor, neither of them started. -/
def Jack.looped (f : StreamFormat) : Jack :=
  let (l, w) := Loopback.init {} {} { info := f }
  let (monitor, sink) := (Sink.loopback l).takeMonitor
  { sink := sink, source := monitor.getD (.null false), world := w }

end Adapter
end Patchbay
