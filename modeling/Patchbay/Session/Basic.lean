import Patchbay.Device.Descriptor
import Patchbay.FileTree
import Patchbay.Number.Single
import Patchbay.Ring.Handles
import Patchbay.Ring.Workspace

/-!
# Sessions

A session is one client's stream: its configuration, its ring, where it stands in its life and
the device it is bound to. A start that finds no device is remembered and carried out when a
device is bound.
-/
namespace Patchbay

inductive SessionState where
  | new
  | prepared
  | running
  | paused
  | stopped
  | released
  | invalid
deriving DecidableEq, Repr

namespace SessionState

def name : SessionState → String
  | new => "New"
  | prepared => "Prepared"
  | running => "Running"
  | paused => "Paused"
  | stopped => "Stopped"
  | released => "Released"
  | invalid => "Invalid"

/-- A terminal state is never left. -/
def isTerminal : SessionState → Bool
  | released | invalid => true
  | _ => false

end SessionState

/-- The gain that mixing applies to a stream. -/
structure Controls where
  volume : Single := Single.one
  isMuted : Bool := false
deriving DecidableEq, Repr

namespace Controls

/-- Volumes are cut to the interval from zero to one. -/
def setVolume (c : Controls) (v : Single) : Controls :=
  { c with volume := v.clamp Single.zero Single.one }

def setMuted (c : Controls) (m : Bool) : Controls :=
  { c with isMuted := m }

/-- A muted stream has gain zero. -/
def gain (c : Controls) : Single :=
  if c.isMuted then Single.zero else c.volume

end Controls

/-- Counts of what passed through a session. They have no bound; in 64 bits they would start again
after 2 ^ 64 calls. -/
structure Position where
  framesWritten : Nat := 0
  framesRead : Nat := 0
  underruns : Nat := 0
  overruns : Nat := 0
deriving DecidableEq, Repr

/-- What a client may learn of its ring and its progress. -/
structure HandleInfo where
  handle : Handle
  readCursor : UInt64
  writeCursor : UInt64
  position : Position
  lastTimestamp : UInt64
deriving DecidableEq, Repr

/-- What a session tells the keeper of its route. -/
inductive SessionEvent where
  | released (id : Nat)
  | invalidated (id : Nat) (reason : String)
deriving DecidableEq, Repr

namespace SessionEvent

def sessionId : SessionEvent → Nat
  | released id | invalidated id _ => id

/-- The reason an owner is given. -/
def reason : SessionEvent → String
  | released _ => "released"
  | invalidated _ reason => reason

end SessionEvent

structure Session where
  id : Nat
  config : StreamConfig
  ring : Ring
  handle : Handle
  state : SessionState := .new
  device : Device := Device.none
  /-- A start waits for a device. -/
  isPending : Bool := false
  /-- Whether someone listens to its events. -/
  reports : Bool := false
  controls : Controls := {}
  position : Position := {}
  lastTimestamp : UInt64 := 0
  /-- How often the bound device became a different one, without a bound; in 64 bits the count
  would start again after 2 ^ 64 times. -/
  epoch : Nat := 0
deriving Repr

/-- What the surroundings of a session do when it ends: withdraw the handle, remove the file and
pass the event on. -/
structure Closing where
  handle : Nat
  file : Option String
  event : Option SessionEvent
deriving DecidableEq, Repr

namespace Session

def intent (s : Session) : StreamIntent := s.config.intent

def isTerminal (s : Session) : Bool := s.state.isTerminal

def isRunning (s : Session) : Bool := s.state = .running

/-- The form used in reports. -/
def describe (s : Session) : String :=
  "StreamSession \x7b " ++ s!"id: {s.id}, intent: {s.intent.describe}, state: {s.state.name}, " ++
    s!"handle: {s.handle.describe}, .. " ++ "\x7d"

/-- The refusal of an operation in the present state. -/
def illegal (s : Session) (op : String) : StreamError :=
  .illegalState op s.state.name

/-- Where file-backed rings are made, and under what name of this program. -/
structure RingHome where
  dir : String
  process : String

/-- The file of session `id`. -/
def RingHome.path (h : RingHome) (id : Nat) : String :=
  Path.below h.dir ("audiod-" ++ h.process ++ "-" ++ toString id ++ ".ring")

/-- Checks a configuration, makes the ring and publishes its handle. -/
def create (host : Host) (home : Option RingHome) (id : Nat) (config : StreamConfig)
    (files : Directory) (handles : HandleTable) :
    Except StreamError Session × Directory × HandleTable :=
  match config.check with
  | .error e => (.error e, files, handles)
  | .ok () =>
    match config.spanBytes? with
    | none => (.error (.invalidParam "span size overflows"), files, handles)
    | some spanSize =>
      let geometry : RingGeometry := ⟨config.spanCount, spanSize⟩
      let made := match home with
        | some h => geometry.createFile host files (h.path id) id
        | none => (geometry.createAnonymous host, files)
      match made with
      | (.error e, files) => (.error e, files, handles)
      | (.ok ring, files) =>
        let (handle, handles) := handles.publish geometry
        (.ok { id := id, config := config, ring := ring, handle := handle }, files, handles)

end Session
end Patchbay
