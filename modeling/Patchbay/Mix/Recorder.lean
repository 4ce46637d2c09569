import Patchbay.Adapter.Jack
import Patchbay.Mix.RouteCache

/-!
# Recorders

A recorder captures from one input device. In each cycle it takes one span from its source and
queues a copy in every running session that is routed to the device. A session whose ring is
full loses the span.
-/
namespace Patchbay

structure Recorder (σ : Type) where
  device : Device
  input : σ
  routes : RouteCache
  /-- The span that was captured last. -/
  span : List UInt8
  /-- Spans that found a ring full, without a bound; in 64 bits the count would start again after
  2 ^ 64 of them. -/
  dropped : Nat := 0

namespace Recorder
variable {σ : Type}

def create (device : Device) (info : StreamFormat) (spanFrames : UInt32) (input : σ) :
    Except DeviceError (Recorder σ) :=
  let spanBytes := spanFrames.toNat * info.bytesPerFrame
  if spanBytes = 0 then .error (.initializationFailed "capture span is empty")
  else
    .ok {
      device := device
      input := input
      routes := { device := device, role := .input, info := info }
      span := List.replicate spanBytes 0 }

/-- Queues a span in one session; the number counts the spans lost. -/
def queue (data : List UInt8) (timestamp : UInt64) (p : Nat × Registry) (s : Session) :
    Nat × Registry :=
  match p.2.apply s.id (·.write data timestamp) with
  | (.error .bufferFull, reg) => (p.1 + 1, reg)
  | (_, reg) => (p.1, reg)

variable [Recording σ]

/-- One cycle, with the number of bytes captured. Without a session that listens the source is
left alone. -/
def cycle (r : Recorder σ) (reg : Registry) (timestamp : UInt64) :
    Except DeviceError Nat × Recorder σ × Registry :=
  let r := { r with routes := (r.routes.refresh reg).2 }
  let sessions := r.routes.running reg
  if sessions.isEmpty then (.ok 0, r, reg)
  else
    match Recording.capture r.input r.span with
    | (.error e, input) => (.error e, { r with input := input }, reg)
    | (.ok (claimed, span), input) =>
      let n := min claimed span.length
      let (lost, reg) := sessions.foldl (queue (span.take n) timestamp) (0, reg)
      (.ok n, { r with input := input, span := span, dropped := r.dropped + lost }, reg)

/-- Cycles while `goOn` holds, but at most `n` times. -/
def cycles (goOn : Registry → Bool) (timestamp : UInt64) :
    Nat → Recorder σ → Registry → Recorder σ × Registry
  | 0, r, reg => (r, reg)
  | n + 1, r, reg =>
    if goOn reg then
      let (_, r, reg) := r.cycle reg timestamp
      cycles goOn timestamp n r reg
    else (r, reg)

/-- Starts the input, cycles and stops it. An input that does not start captures nothing. -/
def run (goOn : Registry → Bool) (timestamp : UInt64) (n : Nat) (r : Recorder σ)
    (reg : Registry) : Recorder σ × Registry :=
  match Recording.start r.input with
  | (.error _, input) => ({ r with input := input }, reg)
  | (.ok (), input) =>
    let (r, reg) := cycles goOn timestamp n { r with input := input } reg
    ({ r with input := (Recording.stop r.input).2 }, reg)

end Recorder
end Patchbay
