import Patchbay.Level.Parameters
import Patchbay.Level.Volume
import Patchbay.Route.Switchboard
import Patchbay.Settings.Diff

/-!
# Stations

A station is all that a running program keeps: devices, sessions, routes, volumes and
parameters. Device changes and session events wait in queues until they are handled, so a
session can be routed by devices that have changed since.
-/
namespace Patchbay

structure Station where
  roster : Roster := {}
  registry : Registry := {}
  board : Switchboard := { chains := ∅ }
  desk : VolumeDesk := .ofSettings {}
  parameters : Parameters := {}
  /-- Device changes that were published and not yet handled. -/
  changes : List DeviceChange := []
deriving Inhabited

namespace Station

/-- Connects a device at the time `now`. -/
def connect (s : Station) (now : UInt64) (d : Device) : DeviceChange × Station :=
  let (change, roster) := s.roster.connect now d
  (change, { s with roster := roster, changes := s.changes ++ [change] })

def disconnect (s : Station) (d : Device) : Option DeviceChange × Station :=
  let (change, roster) := s.roster.disconnect d
  (change, { s with roster := roster, changes := s.changes ++ change.toList })

/-- Handles the next device change and answers how many sessions moved. -/
def nextChange (s : Station) : Option Nat × Station :=
  match s.changes with
  | [] => (none, s)
  | change :: rest =>
    let (moved, board, registry) := s.board.handleChange s.roster s.registry change
    (some moved, { s with board := board, registry := registry, changes := rest })

/-- Tells the switchboard of the end of a session. -/
def note (s : Station) (e : SessionEvent) : Station :=
  { s with board := s.board.handleEvent e }

/-- Handles the next session event. -/
def nextEvent (s : Station) : Option SessionEvent × Station :=
  match s.registry.events with
  | [] => (none, s)
  | e :: rest => (some e, { s with registry := { s.registry with events := rest } }.note e)

/-- Handles the session events that wait and answers them. -/
def handleEvents (s : Station) : List SessionEvent × Station :=
  let (events, registry) := s.registry.takeEvents
  (events, events.foldl note { s with registry := registry })

/-- Handles the device changes that wait, in order. -/
def handleChanges (s : Station) : Station :=
  let (board, registry) := s.board.handleAll s.roster s.registry s.changes []
  { s with board := board, registry := registry, changes := [] }

/-- Handles all that waits. -/
def settle (s : Station) : Station :=
  s.handleChanges.handleEvents.2

/-- Applies an operation to a session. -/
def apply {α : Type} (s : Station) (id : Nat)
    (op : Session → Except StreamError α × Session) : Except StreamError α × Station :=
  let (a, registry) := s.registry.apply id op
  (a, { s with registry := registry })

/-- Routes a session and keeps track of it; the number is the inbox of its notices. -/
def register (s : Station) (session : Session) :
    Except PolicyError (RouteDecision × Nat) × Station :=
  let (a, board, registry) := s.board.register s.roster s.registry session
  (a, { s with board := board, registry := registry })

def unregister (s : Station) (id : Nat) : Except PolicyError Unit × Station :=
  let (a, board) := s.board.unregister id
  (a, { s with board := board })

/-- Gives a session the volume of its class. -/
def attach (s : Station) (id : Nat) : Station :=
  { s with registry := s.desk.attach s.registry id }

def setVolume (s : Station) (c : VolumeClass) (v : Single) : Except PolicyError Unit × Station :=
  let (a, desk, registry) := s.desk.setVolume s.registry c v
  (a, { s with desk := desk, registry := registry })

/-- Puts a changed desk and the registry that it changed into place. -/
def withDesk (s : Station) (p : VolumeDesk × Registry) : Station :=
  { s with desk := p.1, registry := p.2 }

def setMuted (s : Station) (c : VolumeClass) (m : Bool) : Station :=
  s.withDesk (s.desk.setMuted s.registry c m)

def setRinger (s : Station) (m : RingerMode) : Station :=
  s.withDesk (s.desk.setRinger s.registry m)

def applyLevels (s : Station) (levels : List (VolumeClass × UInt8)) (v : VolumeSettings) :
    Station :=
  s.withDesk (s.desk.applyLevels s.registry levels v)

def setDeviceActive (s : Station) (t : DeviceType) (active : Bool) :
    Except PolicyError Unit × Station :=
  let (a, desk) := s.desk.setDeviceActive t active
  (a, { s with desk := desk })

def setParameter (s : Station) (key value : String) : Except PolicyError Unit × Station :=
  let (a, parameters) := s.parameters.set key value
  (a, { s with parameters := parameters })

def setRemoteParameter (s : Station) (network : String) (key : RemoteKey)
    (condition value : String) : Except PolicyError Unit × Station :=
  let (a, parameters) := s.parameters.setRemote network key condition value
  (a, { s with parameters := parameters })

/-- Takes over what can change while the program runs: levels, with the new bounds, and then
parameters. -/
def reload (s : Station) (d : SettingsDiff) (new : Settings) : Station :=
  let s := if d.volume.isEmpty then s else s.applyLevels d.volume new.volume
  { s with parameters := s.parameters.apply d.parameters }

/-- A station as the settings want it, with the devices that are there from the start, connected
at the time `now`. Their changes wait to be handled. -/
def ofSettings (known : List RouteRule) (now : UInt64) (home : Option Session.RingHome)
    (s : Settings) : Except DeviceError Station := do
  let chains ← RouteChains.ofNames known s.routing
  let station : Station := {
    roster := { table := s.privacy }
    registry := { home := home }
    board := { chains := chains }
    desk := .ofSettings s.volume
    parameters := { values := s.parameters } }
  pure (s.devices.foldl (fun st seed => (st.connect now seed.device).2) station)

end Station
end Patchbay
