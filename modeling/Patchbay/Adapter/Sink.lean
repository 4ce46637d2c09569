import Patchbay.Adapter.World
import Patchbay.Stream.Config
import Patchbay.Toml.Value

/-!
# Sinks

A sink plays what it is given: to nowhere, to a file, or into a pipe that a monitor can read. It
takes frames only while it is started. Volumes are applied in the mix, so sinks have none.
-/
namespace Patchbay.Adapter

/-- All that an adapter needs to open a device. -/
structure Attributes where
  info : StreamFormat := {}
  /-- Settings of one kind of adapter only, such as the path of a file. -/
  options : Table String Toml.Value := ∅

/-- An option that is a text. -/
def Attributes.option? (a : Attributes) (key : String) : Option String :=
  match a.options.get? key with
  | some (.text s) => some s
  | _ => none

/-- The file that an adapter is to use. -/
def Attributes.path (a : Attributes) : Except DeviceError String :=
  match a.option? "path" with
  | some path => .ok path
  | none => .error (.initializationFailed "missing 'path' in adapter options")

/-- A sink that discards everything. -/
structure NullSink where
  isStarted : Bool := false
  /-- How many bytes it was given. -/
  rendered : Nat := 0
deriving DecidableEq, Repr

/-- A sink whose bytes can be read back. -/
structure Loopback where
  /-- The pipe made when it was last initialised. -/
  pipe : Option Nat := none
  /-- The pipe whose monitor can still be taken. -/
  monitor : Option Nat := none
  isStarted : Bool := false
  /-- Bytes lost because the monitor did not keep up. -/
  dropped : Nat := 0
deriving DecidableEq, Repr

namespace Loopback

/-- How much audio the pipe holds. -/
def milliseconds : Nat := 200

def capacity (f : StreamFormat) : Nat :=
  max 1 (f.sampleRate.toNat * f.bytesPerFrame / 1000 * milliseconds)

def init (l : Loopback) (w : World) (a : Attributes) : Loopback × World :=
  let (i, w) := w.addPipe (capacity a.info)
  ({ l with pipe := some i, monitor := some i }, w)

def start (l : Loopback) : Except DeviceError Unit × Loopback :=
  if l.pipe.isNone then (.error (.initializationFailed "loopback sink not initialised"), l)
  else (.ok (), { l with isStarted := true })

end Loopback

/-- A sink that appends raw samples to a file. -/
structure FileSink where
  path : Option String := none
  /-- The file that is open; a pause leaves it open. -/
  opened : Option Place := none
  isStarted : Bool := false
  frames : Nat := 0
deriving DecidableEq, Repr

def FileSink.start (f : FileSink) (w : World) : Except DeviceError Unit × FileSink × World :=
  match f.path, f.opened with
  | none, _ => (.error (.initializationFailed "not initialized"), f, w)
  | some _, some _ => (.ok (), { f with isStarted := true }, w)
  | some path, none =>
    match w.openFile path with
    | (.error e, w) => (.error e, f, w)
    | (.ok place, w) => (.ok (), { f with opened := some place, isStarted := true }, w)

inductive Sink where
  | null (s : NullSink)
  | loopback (s : Loopback)
  | file (s : FileSink)
deriving DecidableEq, Repr

namespace Sink

def name : Sink → String
  | null _ => "null"
  | loopback _ => "loopback"
  | file _ => "file"

/-- The delay in milliseconds. -/
def latency : Sink → Nat
  | loopback l => if l.pipe.isSome then Loopback.milliseconds else 0
  | _ => 0

def init (s : Sink) (w : World) (a : Attributes) : Except DeviceError Unit × Sink × World :=
  match s with
  | null _ => (.ok (), s, w)
  | loopback l =>
    let (l, w) := l.init w a
    (.ok (), loopback l, w)
  | file f =>
    match a.path with
    | .error e => (.error e, s, w)
    | .ok path => (.ok (), file { f with path := some path }, w)

/-- Makes the sink take frames, at first and after a pause. -/
def start (s : Sink) (w : World) : Except DeviceError Unit × Sink × World :=
  match s with
  | null n => (.ok (), null { n with isStarted := true }, w)
  | loopback l =>
    let (r, l) := l.start
    (r, loopback l, w)
  | file f =>
    let (r, f, w) := f.start w
    (r, file f, w)

def pause : Sink → Sink
  | null n => null { n with isStarted := false }
  | loopback l => loopback { l with isStarted := false }
  | file f => file { f with isStarted := false }

/-- Takes no more frames and closes its file. -/
def stop : Sink → Sink
  | file f => file { f with isStarted := false, opened := none }
  | s => s.pause

/-- Plays one frame and answers how many bytes of it were taken, which is always all. -/
def render (s : Sink) (w : World) (data : List UInt8) : Except DeviceError Nat × Sink × World :=
  match s with
  | null n =>
    if n.isStarted then
      (.ok data.length, null { n with rendered := n.rendered + data.length }, w)
    else (.error .notStarted, s, w)
  | loopback l =>
    match l.isStarted, l.pipe with
    | true, some i =>
      let (lost, w) := w.push i data
      (.ok data.length, loopback { l with dropped := l.dropped + lost }, w)
    | _, _ => (.error .notStarted, s, w)
  | file f =>
    match f.isStarted, f.opened with
    | true, some place =>
      match w.append place data with
      | (.error e, w) => (.error e, s, w)
      | (.ok (), w) => (.ok data.length, file { f with frames := f.frames + 1 }, w)
    | _, _ => (.error .notStarted, s, w)

end Sink
end Patchbay.Adapter
