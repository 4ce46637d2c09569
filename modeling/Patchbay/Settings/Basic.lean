import Patchbay.Device.PrivacyTable
import Patchbay.Level.Volume
import Patchbay.Route.Chain

/-!
# Settings

All that can be set: the format of streams and of their rings, where clients connect, the route
chains, the privacy table, the devices that are there from the start, volumes and parameters.
Whatever is left out has a default.
-/
namespace Patchbay

/-- How streams look unless their clients say otherwise. -/
structure StreamSettings where
  logLevel : String := "info"
  info : StreamFormat := {}
  spanFrames : UInt32 := 240
  spanCount : UInt32 := 8
deriving DecidableEq, Repr

/-- Where and how clients connect. -/
structure AccessSettings where
  socketPath : String := "/tmp/audiod.sock"
  /-- What every request must begin with. -/
  token : String := "audiod.IAudioProcess"
  /-- Where the files of rings are made. -/
  bufferDir : String := "/dev/shm"
deriving DecidableEq, Repr

/-- A device that is connected from the start, and the adapter that reaches it. -/
structure DeviceSeed where
  type : DeviceType
  role : DeviceRole
  name : String := ""
  mac : String := ""
  network : String := localNetwork
  adapter : String := "null"
deriving DecidableEq, Repr

def DeviceSeed.device (s : DeviceSeed) : Device where
  type := s.type
  role := s.role
  network := s.network
  mac := s.mac
  name := s.name

structure Settings where
  stream : StreamSettings := {}
  access : AccessSettings := {}
  routing : ChainNames := {}
  privacy : PrivacyTable := PrivacyTable.builtIn
  devices : List DeviceSeed := []
  volume : VolumeSettings := {}
  /-- Ordered by key. -/
  parameters : Table String String := ∅
deriving DecidableEq, Repr

/-- Refuses settings that nothing could work with. -/
def Settings.check (s : Settings) : Except SettingsError Unit :=
  let v := s.volume
  if s.stream.info.sampleRate = 0 then .error (.invalidValue "sample_rate must be non-zero")
  else if s.stream.spanFrames = 0 then .error (.invalidValue "span_size_frames must be non-zero")
  else if !isPowerOfTwo s.stream.spanCount.toNat then
    .error (.invalidValue s!"span_count must be a power of two, got {s.stream.spanCount}")
  else if s.stream.info.channels = 0 then .error (.invalidValue "channels must be non-zero")
  else if v.minLevel > v.maxLevel then
    .error (.invalidValue s!"min_volume {v.minLevel} exceeds max_volume {v.maxLevel}")
  else if s.access.token = "" then .error (.invalidValue "interface_token must not be empty")
  else .ok ()

end Patchbay
