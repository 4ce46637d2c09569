import Patchbay.Settings.Basic
import Patchbay.Settings.Template
import Patchbay.Text.Utf8
import Patchbay.Toml.Shape

/-!
# Reading settings

Settings are a TOML document: tables `general`, `ipc`, `routing`, `volume` and `parameters`, and
lists of tables `privacy` and `device`. Keys without a meaning are passed over.
-/
namespace Patchbay
open Toml

def StreamSettings.ofToml? (v : Value) : Option StreamSettings := do
  let fs ← v.fields?
    ["log_level", "sample_rate", "channels", "format", "span_size_frames", "span_count"]
  let d : StreamSettings := {}
  let logLevel ← fieldOr? fs "log_level" Value.text? d.logLevel
  let rate ← fieldOr? fs "sample_rate" (Value.natural? UInt32.size) d.info.sampleRate.toNat
  let channels ← fieldOr? fs "channels" (Value.natural? UInt16.size) d.info.channels.toNat
  let format ← fieldOr? fs "format" Value.choice? d.info.format
  let spanFrames ← fieldOr? fs "span_size_frames" (Value.natural? UInt32.size) d.spanFrames.toNat
  let spanCount ← fieldOr? fs "span_count" (Value.natural? UInt32.size) d.spanCount.toNat
  pure
    { logLevel := logLevel
      info := ⟨UInt32.ofNat rate, UInt16.ofNat channels, format⟩
      spanFrames := UInt32.ofNat spanFrames
      spanCount := UInt32.ofNat spanCount }

def AccessSettings.ofToml? (v : Value) : Option AccessSettings := do
  let fs ← v.fields? ["socket_path", "interface_token", "buffer_dir"]
  let d : AccessSettings := {}
  let socketPath ← fieldOr? fs "socket_path" Value.text? d.socketPath
  let token ← fieldOr? fs "interface_token" Value.text? d.token
  let bufferDir ← fieldOr? fs "buffer_dir" Value.text? d.bufferDir
  pure ⟨socketPath, token, bufferDir⟩

def ChainNames.ofToml? (v : Value) : Option ChainNames := do
  let fs ← v.fields? ["media_render", "call_render", "ring_render", "tone_render",
    "record_capture", "call_capture"]
  let d : ChainNames := {}
  let names := Value.list? Value.text?
  let mediaRender ← fieldOr? fs "media_render" names d.mediaRender
  let callRender ← fieldOr? fs "call_render" names d.callRender
  let ringRender ← fieldOr? fs "ring_render" names d.ringRender
  let toneRender ← fieldOr? fs "tone_render" names d.toneRender
  let recordCapture ← fieldOr? fs "record_capture" names d.recordCapture
  let callCapture ← fieldOr? fs "call_capture" names d.callCapture
  pure ⟨mediaRender, callRender, ringRender, toneRender, recordCapture, callCapture⟩

def PrivacyRow.ofToml? (v : Value) : Option PrivacyRow := do
  let fs ← v.fields? ["device_type", "privacy", "roles", "usages"]
  let type ← field? fs "device_type" Value.choice?
  let privacy ← field? fs "privacy" Value.choice?
  let roles ← field? fs "roles" (Value.list? Value.choice?)
  let usages ← field? fs "usages" (Value.list? Value.choice?)
  pure ⟨type, privacy, roles, usages⟩

def DeviceSeed.ofToml? (v : Value) : Option DeviceSeed := do
  let fs ← v.fields? ["device_type", "role", "name", "mac_address", "network_id", "adapter"]
  let type ← field? fs "device_type" Value.choice?
  let role ← field? fs "role" Value.choice?
  let name ← fieldOr? fs "name" Value.text? ""
  let mac ← fieldOr? fs "mac_address" Value.text? ""
  let network ← fieldOr? fs "network_id" Value.text? localNetwork
  let adapter ← fieldOr? fs "adapter" Value.text? "null"
  pure ⟨type, role, name, mac, network, adapter⟩

def VolumeSettings.ofToml? (v : Value) : Option VolumeSettings := do
  let fs ← v.fields? ["min_volume", "max_volume", "default_level", "levels"]
  let d : VolumeSettings := {}
  let level (v : Value) : Option UInt8 := (v.natural? 256).map UInt8.ofNat
  let minLevel ← fieldOr? fs "min_volume" level d.minLevel
  let maxLevel ← fieldOr? fs "max_volume" level d.maxLevel
  let defaultLevel ← fieldOr? fs "default_level" level d.defaultLevel
  let levels ← fieldOr? fs "levels" (Value.table? level) d.levels
  pure ⟨minLevel, maxLevel, defaultLevel, levels⟩

namespace Settings

/-- The settings that the root table of a document stands for. -/
def ofToml? (fs : List (String × Value)) : Option Settings := do
  let d : Settings := {}
  let stream ← fieldOr? fs "general" StreamSettings.ofToml? d.stream
  let access ← fieldOr? fs "ipc" AccessSettings.ofToml? d.access
  let routing ← fieldOr? fs "routing" ChainNames.ofToml? d.routing
  let privacy ← fieldOr? fs "privacy" (Value.list? PrivacyRow.ofToml?) d.privacy
  let devices ← fieldOr? fs "device" (Value.list? DeviceSeed.ofToml?) d.devices
  let volume ← fieldOr? fs "volume" VolumeSettings.ofToml? d.volume
  let parameters ← fieldOr? fs "parameters" (Value.table? Value.text?) d.parameters
  pure ⟨stream, access, routing, privacy, devices, volume, parameters⟩

/-- Expands the variables of a text, reads it and checks the settings. -/
def ofText (lookup : String → Option String) (text : String) : Except SettingsError Settings := do
  let text ← Template.expand lookup text
  match (Toml.read? text).bind ofToml? with
  | none => .error .unparsable
  | some s =>
    s.check
    pure s

/-- Reads a settings file, if there is one. -/
def ofFile (lookup : String → Option String) (contents : Option (List UInt8)) :
    Except SettingsError Settings :=
  match contents.map Utf8.decode with
  | some (.ok text) => ofText lookup text
  | _ => .error .unreadable

end Settings
end Patchbay
