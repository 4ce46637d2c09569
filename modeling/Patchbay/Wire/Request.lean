import Patchbay.Named
import Patchbay.Stream.Config
import Patchbay.Wire.Parcel

/-!
# Requests

What a client can ask of the server. A request message is the code of its kind, the token of the
server it is meant for, and the fields of the request.
-/
namespace Patchbay.Wire

inductive RequestKind where
  | createSession
  | resolveBuffer
  | start
  | pause
  | resume
  | stop
  | release
  | handleInfo
  | devices
  | setVolume
  | volume
  | setMuted
  | isMuted
  | isActive
  | setDeviceActive
  | isDeviceActive
  | setRinger
  | ringer
  | parameter
  | setParameter
  | remoteParameter
  | setRemoteParameter
deriving DecidableEq, Repr, Inhabited

namespace RequestKind

def all : List RequestKind :=
  [.createSession, .resolveBuffer, .start, .pause, .resume, .stop, .release, .handleInfo,
    .devices, .setVolume, .volume, .setMuted, .isMuted, .isActive, .setDeviceActive,
    .isDeviceActive, .setRinger, .ringer, .parameter, .setParameter, .remoteParameter,
    .setRemoteParameter]

def name : RequestKind → String
  | .createSession => "CreateSession"
  | .resolveBuffer => "ResolveBuffer"
  | .start => "Start"
  | .pause => "Pause"
  | .resume => "Resume"
  | .stop => "Stop"
  | .release => "Release"
  | .handleInfo => "RequestHandleInfo"
  | .devices => "GetDevices"
  | .setVolume => "SetStreamVolume"
  | .volume => "GetStreamVolume"
  | .setMuted => "SetStreamMute"
  | .isMuted => "GetStreamMute"
  | .isActive => "IsStreamActive"
  | .setDeviceActive => "SetDeviceActive"
  | .isDeviceActive => "IsDeviceActive"
  | .setRinger => "SetRingerMode"
  | .ringer => "GetRingerMode"
  | .parameter => "GetAudioParameter"
  | .setParameter => "SetAudioParameter"
  | .remoteParameter => "GetRemoteAudioParameter"
  | .setRemoteParameter => "SetRemoteAudioParameter"

def code : RequestKind → UInt32
  | .createSession => 1
  | .resolveBuffer => 2
  | .start => 3
  | .pause => 4
  | .resume => 5
  | .stop => 6
  | .release => 7
  | .handleInfo => 8
  | .devices => 20
  | .setVolume => 30
  | .volume => 31
  | .setMuted => 32
  | .isMuted => 33
  | .isActive => 34
  | .setDeviceActive => 35
  | .isDeviceActive => 36
  | .setRinger => 37
  | .ringer => 38
  | .parameter => 40
  | .setParameter => 41
  | .remoteParameter => 42
  | .setRemoteParameter => 43

def ofCode? (c : UInt32) : Option RequestKind :=
  all.find? (·.code == c)

theorem ofCode?_code (k : RequestKind) : ofCode? k.code = some k := by
  cases k <;> decide

end RequestKind

instance : Named RequestKind := ⟨RequestKind.all, RequestKind.name⟩

inductive Request where
  | createSession (config : StreamConfig)
  | resolveBuffer (id : UInt64)
  | start (id : UInt64)
  | pause (id : UInt64) (discard : Bool)
  | resume (id : UInt64)
  | stop (id : UInt64)
  | release (id : UInt64)
  | handleInfo (id : UInt64)
  | devices (role : DeviceRole) (privacy : Privacy)
  | setVolume (group : VolumeClass) (volume : Single)
  | volume (group : VolumeClass)
  | setMuted (group : VolumeClass) (muted : Bool)
  | isMuted (group : VolumeClass)
  | isActive (group : VolumeClass)
  | setDeviceActive (type : DeviceType) (active : Bool)
  | isDeviceActive (type : DeviceType)
  | setRinger (mode : RingerMode)
  | ringer
  | parameter (key : String)
  | setParameter (key value : String)
  | remoteParameter (network : String) (key : RemoteKey) (condition : String)
  | setRemoteParameter (network : String) (key : RemoteKey) (condition value : String)
deriving DecidableEq, Repr

def writeIntent : StreamIntent → List UInt8
  | .render u => writeCode 0 ++ writeCode u.code
  | .capture s => writeCode 1 ++ writeCode s.code

def writeConfig (c : StreamConfig) : List UInt8 :=
  writeIntent c.intent ++ write32 c.info.sampleRate ++ write32 c.info.channels.toUInt32 ++
    writeCode c.info.format.code ++ writeCode c.uid ++ write32 c.totalFrames ++
    write32 c.spanFrames

/-- The meaning of a code read before. -/
def known {α : Type} (what : String) (a : Option α) (c : Int32) : Reader α :=
  match a with
  | some a => pure a
  | none => throw (.malformed s!"unknown {what} {c}")

def readIntent : Reader StreamIntent := do
  let kind ← readCode
  let c ← readCode
  if kind = 0 then
    let u ← known "stream usage" (StreamUsage.ofCode? c) c
    pure (.render u)
  else if kind = 1 then
    let s ← known "source type" (SourceType.ofCode? c) c
    pure (.capture s)
  else throw (.malformed s!"unknown intent kind {kind}")

/-- Channels are written as 32 bits; 16 must hold them. -/
def readChannels : Reader UInt16 := do
  let n ← read32
  if n.toNat < UInt16.size then pure (UInt16.ofNat n.toNat)
  else throw (.malformed s!"channel count {n}")

def readConfig : Reader StreamConfig := do
  let intent ← readIntent
  let rate ← read32
  let channels ← readChannels
  let format ← readKnown "unknown sample format" SampleFormat.ofCode?
  let uid ← readCode
  let total ← read32
  let span ← read32
  pure ⟨intent, ⟨rate, channels, format⟩, uid, total, span⟩

def readGroup : Reader VolumeClass := readKnown "unknown stream type" VolumeClass.ofCode?

def readType : Reader DeviceType := readKnown "unknown device type" DeviceType.ofCode?

def readKey : Reader RemoteKey := readKnown "unknown parameter key" RemoteKey.ofCode?

namespace Request

def kind : Request → RequestKind
  | createSession _ => .createSession
  | resolveBuffer _ => .resolveBuffer
  | start _ => .start
  | pause _ _ => .pause
  | resume _ => .resume
  | stop _ => .stop
  | release _ => .release
  | handleInfo _ => .handleInfo
  | devices _ _ => .devices
  | setVolume _ _ => .setVolume
  | volume _ => .volume
  | setMuted _ _ => .setMuted
  | isMuted _ => .isMuted
  | isActive _ => .isActive
  | setDeviceActive _ _ => .setDeviceActive
  | isDeviceActive _ => .isDeviceActive
  | setRinger _ => .setRinger
  | ringer => .ringer
  | parameter _ => .parameter
  | setParameter _ _ => .setParameter
  | remoteParameter _ _ _ => .remoteParameter
  | setRemoteParameter _ _ _ _ => .setRemoteParameter

/-- The fields of a request. -/
def payload : Request → List UInt8
  | createSession c => writeConfig c
  | resolveBuffer id | start id | resume id | stop id | release id | handleInfo id => write64 id
  | pause id discard => write64 id ++ writeFlag discard
  | devices role privacy => writeCode role.code ++ writeCode privacy.code
  | setVolume g v => writeCode g.code ++ writeSingle v
  | setMuted g m => writeCode g.code ++ writeFlag m
  | volume g | isMuted g | isActive g => writeCode g.code
  | setDeviceActive t active => writeCode t.code ++ writeFlag active
  | isDeviceActive t => writeCode t.code
  | setRinger m => writeCode m.code
  | ringer => []
  | parameter key => writeText key
  | setParameter key value => writeText key ++ writeText value
  | remoteParameter network key condition =>
    writeText network ++ writeCode key.code ++ writeText condition
  | setRemoteParameter network key condition value =>
    writeText network ++ writeCode key.code ++ writeText condition ++ writeText value

/-- The whole message. -/
def encode (r : Request) (token : String) : List UInt8 :=
  write32 r.kind.code ++ writeText token ++ r.payload

/-- Reads the fields of a request of a known kind. -/
def readPayload : RequestKind → Reader Request
  | .createSession => do pure (createSession (← readConfig))
  | .resolveBuffer => do pure (resolveBuffer (← read64))
  | .start => do pure (start (← read64))
  | .pause => do pure (pause (← read64) (← readFlag))
  | .resume => do pure (resume (← read64))
  | .stop => do pure (stop (← read64))
  | .release => do pure (release (← read64))
  | .handleInfo => do pure (handleInfo (← read64))
  | .devices => do
    let role ← readKnown "unknown role" DeviceRole.ofCode?
    let privacy ← readKnown "unknown privacy" Privacy.ofCode?
    pure (devices role privacy)
  | .setVolume => do pure (setVolume (← readGroup) (← readSingle))
  | .volume => do pure (volume (← readGroup))
  | .setMuted => do pure (setMuted (← readGroup) (← readFlag))
  | .isMuted => do pure (isMuted (← readGroup))
  | .isActive => do pure (isActive (← readGroup))
  | .setDeviceActive => do pure (setDeviceActive (← readType) (← readFlag))
  | .isDeviceActive => do pure (isDeviceActive (← readType))
  | .setRinger => do pure (setRinger (← readKnown "unknown ringer mode" RingerMode.ofCode?))
  | .ringer => pure ringer
  | .parameter => do pure (parameter (← readText))
  | .setParameter => do pure (setParameter (← readText) (← readText))
  | .remoteParameter => do pure (remoteParameter (← readText) (← readKey) (← readText))
  | .setRemoteParameter => do
    pure (setRemoteParameter (← readText) (← readKey) (← readText) (← readText))

/-- Reads the code of a request. -/
def readKind : Reader RequestKind := do
  let c ← read32
  match RequestKind.ofCode? c with
  | some k => pure k
  | none => throw (.unknownCode c)

/-- Reads a request and the token before it, which is not looked at. -/
def readAny : Reader (String × Request) := do
  let kind ← readKind
  let token ← readText
  let r ← readPayload kind
  pure (token, r)

/-- Reads a request that is meant for the server with this token. A wrong token is refused before
the fields are looked at. -/
def readFor (token : String) : Reader Request := do
  let kind ← readKind
  let actual ← readText
  if actual ≠ token then throw (.authenticationFailed token actual)
  readPayload kind

end Request
end Patchbay.Wire
