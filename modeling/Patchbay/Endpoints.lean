import Patchbay.Mix.Mixer
import Patchbay.Mix.Recorder
import Patchbay.Settings.Basic

/-!
# Endpoints

The mixers and recorders that the settings ask for: one for each device that is there from the
start. A device whose adapter cannot be opened, or whose format the endpoint cannot take, has
none, and the others still run.
-/
namespace Patchbay

structure Endpoints where
  mixers : List (Mixer Adapter.Jack)
  recorders : List (Recorder Adapter.Jack)

namespace Endpoints
open Adapter (Catalog Jack World)

/-- The mixer for an output device. -/
def mixer (catalog : Catalog) (w : World) (s : StreamSettings) (seed : DeviceSeed) :
    Except DeviceError (Mixer Jack) :=
  match catalog.openSink w seed.adapter { info := s.info } with
  | (.error e, _) => .error e
  | (.ok sink, w) => Mixer.create seed.device s.info s.spanFrames { sink := sink, world := w }

/-- The recorder for an input device. -/
def recorder (catalog : Catalog) (w : World) (s : StreamSettings) (seed : DeviceSeed) :
    Except DeviceError (Recorder Jack) := do
  let source ← catalog.openSource w seed.adapter { info := s.info }
  Recorder.create seed.device s.info s.spanFrames { source := source, world := w }

/-- All endpoints that can be opened. -/
def ofSettings (catalog : Catalog) (w : World) (s : Settings) : Endpoints :=
  let seeds (role : DeviceRole) : List DeviceSeed := s.devices.filter (·.role = role)
  { mixers := (seeds .output).filterMap fun d => (mixer catalog w s.stream d).toOption
    recorders := (seeds .input).filterMap fun d => (recorder catalog w s.stream d).toOption }

/-- One cycle of every mixer in turn. -/
def mixAll (reg : Registry) : List (Mixer Jack) → List (Mixer Jack) × Registry
  | [] => ([], reg)
  | m :: ms =>
    let (_, m, reg) := m.cycle reg
    let (ms, reg) := mixAll reg ms
    (m :: ms, reg)

/-- One cycle of every recorder in turn. -/
def recordAll (timestamp : UInt64) (reg : Registry) :
    List (Recorder Jack) → List (Recorder Jack) × Registry
  | [] => ([], reg)
  | r :: rs =>
    let (_, r, reg) := r.cycle reg timestamp
    let (rs, reg) := recordAll timestamp reg rs
    (r :: rs, reg)

/-- Starts the adapters. One that does not start takes no part from then on. -/
def start (e : Endpoints) : Endpoints where
  mixers := e.mixers.filterMap fun m =>
    match Playback.start m.output with
    | (.ok (), output) => some { m with output := output }
    | (.error _, _) => none
  recorders := e.recorders.filterMap fun r =>
    match Recording.start r.input with
    | (.ok (), input) => some { r with input := input }
    | (.error _, _) => none

/-- One cycle of every endpoint. -/
def cycle (e : Endpoints) (timestamp : UInt64) (reg : Registry) : Endpoints × Registry :=
  let (mixers, reg) := mixAll reg e.mixers
  let (recorders, reg) := recordAll timestamp reg e.recorders
  (⟨mixers, recorders⟩, reg)

end Endpoints
end Patchbay
