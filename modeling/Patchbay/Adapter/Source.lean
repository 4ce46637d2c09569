import Patchbay.Adapter.Sink

/-!
# Sources

A source fills spans with captured audio: with silence, from a file, or with what a loopback sink
was given. Data that is missing is silence and never an error.
-/
namespace Patchbay.Adapter

/-- A source that plays a file once, then silence. -/
structure FileSource where
  data : List UInt8 := []
  /-- How much of the data was played. -/
  offset : Nat := 0
  isStarted : Bool := false
deriving DecidableEq, Repr

def FileSource.remaining (f : FileSource) : Nat := f.data.length - f.offset

inductive Source where
  | null (isStarted : Bool)
  | file (s : FileSource)
  /-- What went into a pipe. -/
  | monitor (pipe : Nat) (isStarted : Bool)
deriving DecidableEq, Repr

/-- `data` and then silence, `n` bytes in all. -/
def padded (data : List UInt8) (n : Nat) : List UInt8 :=
  data ++ List.replicate (n - data.length) 0

/-- The monitor of a loopback. It can be taken once after the sink was initialised. -/
def Sink.takeMonitor : Sink → Option Source × Sink
  | .loopback l => (l.monitor.map (.monitor · false), .loopback { l with monitor := none })
  | s => (none, s)

namespace Source

def name : Source → String
  | null _ => "null"
  | file _ => "file"
  | monitor _ _ => "loopback"

def isStarted : Source → Bool
  | null b | monitor _ b => b
  | file f => f.isStarted

def setStarted (b : Bool) : Source → Source
  | null _ => null b
  | file f => file { f with isStarted := b }
  | monitor i _ => monitor i b

/-- Gets ready; a file is read as a whole. -/
def init (s : Source) (w : World) (a : Attributes) : Except DeviceError Unit × Source :=
  match s with
  | file f =>
    match a.path >>= w.read with
    | .error e => (.error e, s)
    | .ok data => (.ok (), file { f with data := data, offset := 0 })
  | s => (.ok (), s)

/-- Makes the source give audio, at first and after a pause. -/
def start (s : Source) : Source := s.setStarted true

def pause (s : Source) : Source := s.setStarted false

/-- Stops; a file will be played from its beginning. -/
def stop : Source → Source
  | file f => file { f with isStarted := false, offset := 0 }
  | s => s.pause

/-- The next `n` bytes. -/
def capture (s : Source) (w : World) (n : Nat) :
    Except DeviceError (List UInt8) × Source × World :=
  if !s.isStarted then (.error .notStarted, s, w)
  else
    match s with
    | null _ => (.ok (padded [] n), s, w)
    | file f =>
      let data := (f.data.drop f.offset).take n
      (.ok (padded data n), file { f with offset := f.offset + data.length }, w)
    | monitor i _ =>
      let (data, w) := w.pop i n
      (.ok (padded data n), s, w)

end Source
end Patchbay.Adapter
