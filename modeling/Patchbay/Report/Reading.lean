import Patchbay.Adapter.Sink
import Patchbay.Device.Roster
import Patchbay.Level.Volume
import Patchbay.Report.Messages
import Patchbay.Route.Chain

/-!
# Values from reports

Tools can send values in the form in which reports show them. A field that is left out has its
default, and a text or bytes may come in pieces.
-/
namespace Patchbay

/-- Values that can be read; `Report.nothing` reads as the default. -/
class Readable (α : Type) where
  read : Report → α

export Readable (read)

namespace Report

/-- A field of a record. -/
def field (r : Report) (name : String) : Report :=
  match r with
  | record fields => (fields.lookup name).getD nothing
  | _ => nothing

def isNothing : Report → Bool
  | nothing => true
  | _ => false

def has (r : Report) (name : String) : Bool := !(r.field name).isNothing

/-- A text, or the pieces of one. -/
def joined : Report → String
  | text s => s
  | list items => String.join (items.map joined)
  | _ => ""

/-- The bytes of pairs of digits. -/
def undigits : List Char → List UInt8
  | a :: b :: rest =>
    let value (c : Char) : Nat := if c.toNat < 58 then c.toNat - 48 else c.toNat - 87
    UInt8.ofNat (value a * 16 + value b) :: undigits rest
  | _ => []

section
variable {α : Type} [Readable α]

/-- Reads a field. -/
def get (r : Report) (name : String) : α := read (r.field name)

/-- Reads a field that has a default. -/
def getD (r : Report) (name : String) (default : α) : α :=
  if r.has name then r.get name else default

end

end Report

section
variable {α β : Type} [Readable α] [Readable β]

instance : Readable Report := ⟨id⟩
instance : Readable Int := ⟨fun r => match r with | .number n => n | _ => 0⟩
instance : Readable Nat := ⟨fun r => (read r : Int).toNat⟩
instance : Readable UInt8 := ⟨fun r => .ofNat (read r)⟩
instance : Readable UInt16 := ⟨fun r => .ofNat (read r)⟩
instance : Readable UInt32 := ⟨fun r => .ofNat (read r)⟩
instance : Readable UInt64 := ⟨fun r => .ofNat (read r)⟩
instance : Readable Int32 := ⟨fun r => .ofInt (read r)⟩
instance : Readable Bool := ⟨fun r => match r with | .flag b => b | _ => false⟩
instance : Readable String := ⟨Report.joined⟩
instance : Readable (List α) := ⟨fun r => match r with | .list l => l.map read | _ => []⟩
instance : Readable (List UInt8) := ⟨fun r => Report.undigits (read r : String).toList⟩
instance : Readable (Option α) := ⟨fun r => if r.isNothing then none else some (read r)⟩
instance : Readable (α × β) := ⟨fun r =>
  let items : List Report := read r
  (read (items.getD 0 .nothing), read (items.getD 1 .nothing))⟩
instance : Readable (Table String α) := ⟨fun r =>
  match r with
  | .record t => .ofList (t.map fun e => (e.1, read e.2))
  | .list l => .ofList (l.map read)
  | _ => ∅⟩
instance : Readable Single :=
  ⟨fun r => ⟨.ofNat (LittleEndian.value (read r : List UInt8).reverse)⟩⟩
instance {γ : Type} [Named γ] [Inhabited γ] : Readable γ :=
  ⟨fun r => (Named.ofName? (read r)).getD default⟩
instance : Readable Toml.Value :=
  ⟨fun r => match r with | .number n => .integer n | r => .text (read r)⟩

end

/-- The first of the given values that has the name in a field. -/
def Report.pick {α : Type} (r : Report) (field : String) (name : α → String) (all : List α)
    (default : α) : α :=
  (all.find? fun a => name a = r.get field).getD default

/-- A stream error by its name in a field. -/
def StreamError.ofReport (r : Report) (field : String) : StreamError :=
  let text : String := r.get "text"
  let id : Nat := r.get "id"
  r.pick field StreamError.name [.invalidParam text, .bufferFull, .bufferEmpty,
    .illegalState (r.get "text2") text, .released, .alreadyTransferred id, .handleNotFound id,
    .sessionNotFound id, .noDevice, .fatal text] (.map text)

instance : Readable StreamError := ⟨fun r => .ofReport r "kind"⟩

instance : Readable DeviceError where
  read r :=
    let text : String := r.get "text"
    r.pick "kind" DeviceError.name [.deviceNotFound text, .adapterNotFound text,
      .ruleNotFound text, .initializationFailed text, .notStarted] (.failedTransfer text)

instance : Readable PolicyError where
  read r :=
    let text : String := r.get "text"
    let id : Nat := r.get "id"
    r.pick "kind" PolicyError.name [.invalidParam text, .sessionNotRegistered id,
      .alreadyRegistered id, .operationFailed text, .unsupported text]
      (.stream (.ofReport r "inner"))

instance : Readable WireError where
  read r :=
    let text : String := r.get "text"
    r.pick "kind" WireError.name [.authenticationFailed text (r.get "text2"),
      .unknownCode (r.get "id"), .malformed text, .peerClosed, .status (r.get "inner"),
      .transferFailed text] (.buffer (.ofReport r "inner"))

instance : Readable Device where
  read r :=
    if r.isNothing then Device.none
    else
      let type : DeviceType := r.get "type"
      { type := type, role := r.getD "role" type.defaultRole, connectedAt := r.get "ts",
        privacy := r.get "privacy", network := r.getD "net" localNetwork, mac := r.get "mac",
        name := r.get "name" }

instance : Readable PrivacyRow :=
  ⟨fun r => ⟨r.get "type", r.get "privacy", r.get "roles", r.get "usages"⟩⟩

instance : Readable StreamIntent where
  read r :=
    if r.has "capture" then .capture (r.get "capture") else .render (r.getD "render" .music)

instance : Readable StreamFormat where
  read r :=
    let d : StreamFormat := {}
    ⟨r.getD "rate" d.sampleRate, r.getD "ch" d.channels, r.getD "fmt" d.format⟩

instance : Readable StreamConfig :=
  ⟨fun r => ⟨read r, read r, r.getD "uid" 1000, r.getD "total" 16, r.getD "span" 4⟩⟩

instance : Readable RingGeometry := ⟨fun r => ⟨r.get "span_count", r.get "span_size"⟩⟩

instance : Readable VolumeSettings where
  read r :=
    let d : VolumeSettings := {}
    ⟨r.getD "min" d.minLevel, r.getD "max" d.maxLevel, r.getD "default" d.defaultLevel,
      r.get "levels"⟩

instance : Readable Adapter.Attributes := ⟨fun r => ⟨r.get "info", r.get "options"⟩⟩

/-- A roster with nothing connected. -/
instance : Readable Roster where
  read r :=
    let d := r.field "defaults"
    { table := r.getD "privacy_table" PrivacyTable.builtIn
      defaultRender := d.getD "render" .speaker
      defaultCapture := d.getD "capture" .mic }

instance : Readable ChainNames where
  read r :=
    let d : ChainNames := {}
    ⟨r.getD "media_render" d.mediaRender, r.getD "call_render" d.callRender,
      r.getD "ring_render" d.ringRender, r.getD "tone_render" d.toneRender,
      r.getD "record_capture" d.recordCapture, r.getD "call_capture" d.callCapture⟩

instance : Readable SessionNotice where
  read r :=
    if r.has "current" then .deviceChanged (r.get "id") (r.get "previous") (r.get "current")
    else .teardown (r.get "id") (r.get "reason")

namespace Wire

instance : Readable BufferHandle := ⟨fun r => ⟨r.get "id", r.get "span_count", r.get "span_size"⟩⟩

instance : Readable Notification where
  read r :=
    match (r.get "n" : String) with
    | "DeviceChanged" => .deviceChanged (r.get "id") (r.get "previous") (r.get "current")
    | "Teardown" => .teardown (r.get "id") (r.get "reason")
    | _ => .parameter ⟨r.get "net", r.get "key", r.get "condition", r.get "value"⟩

instance : Readable Request where
  read r :=
    let id : UInt64 := r.get "id"
    let c : VolumeClass := r.get "stream"
    let type : DeviceType := r.get "type"
    match (r.get "r" : RequestKind) with
    | .createSession => .createSession (r.get "config")
    | .resolveBuffer => .resolveBuffer id
    | .start => .start id
    | .pause => .pause id (r.get "flush")
    | .resume => .resume id
    | .stop => .stop id
    | .release => .release id
    | .handleInfo => .handleInfo id
    | .devices => .devices (r.get "role") (r.get "privacy")
    | .setVolume => .setVolume c (r.get "volume")
    | .volume => .volume c
    | .setMuted => .setMuted c (r.get "muted")
    | .isMuted => .isMuted c
    | .isActive => .isActive c
    | .setDeviceActive => .setDeviceActive type (r.get "active")
    | .isDeviceActive => .isDeviceActive type
    | .setRinger => .setRinger (r.get "mode")
    | .ringer => .ringer
    | .parameter => .parameter (r.get "key")
    | .setParameter => .setParameter (r.get "key") (r.get "value")
    | .remoteParameter => .remoteParameter (r.get "net") (r.get "key") (r.get "condition")
    | .setRemoteParameter =>
      .setRemoteParameter (r.get "net") (r.get "key") (r.get "condition") (r.get "value")

instance : Readable Response where
  read r :=
    match (r.get "r" : String) with
    | "Session" => .session (r.get "id") (r.get "device")
    | "Handle" => .handle (r.get "handle") (r.get "path")
    | "HandleInfo" => .handleInfo ⟨r.get "handle", r.get "read", r.get "write",
        r.get "frames_written", r.get "frames_read", r.get "underruns", r.get "overruns",
        r.get "last_ts"⟩
    | "Devices" => .devices (r.get "devices")
    | "Volume" => .volume (r.get "volume")
    | "Flag" => .flag (r.get "flag")
    | "RingerMode" => .ringerMode (r.get "mode")
    | "Parameter" => .parameter (r.get "value")
    | _ => .empty

end Wire
end Patchbay
