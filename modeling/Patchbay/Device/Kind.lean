import Patchbay.Named

/-!
# Kinds of devices

What a device is, which way its audio flows, who may hear it and what it is used for. Every
value has a name for people, and all but usages a code for the wire.
-/
namespace Patchbay

/-- What a device is. -/
inductive DeviceType where
  | none
  | invalid
  | earpiece
  | speaker
  | wiredHeadset
  | wiredHeadphones
  | bluetoothSco
  | bluetoothA2dp
  | mic
  | wakeup
  | usbHeadset
  | usbArmHeadset
  | remoteCast
  | fileSink
  | fileSource
deriving DecidableEq, Repr, Inhabited

/-- Which way audio flows: into the program or out of it. -/
inductive DeviceRole where
  | none
  | input
  | output
deriving DecidableEq, Repr, Inhabited

/-- Whether a device is heard by its user alone. -/
inductive Privacy where
  | isPublic
  | isPrivate
deriving DecidableEq, Repr, Inhabited

/-- What a device is good for. -/
inductive DeviceUsage where
  | media
  | voice
deriving DecidableEq, Repr, Inhabited

namespace DeviceType

def all : List DeviceType :=
  [.none, .invalid, .earpiece, .speaker, .wiredHeadset, .wiredHeadphones, .bluetoothSco,
    .bluetoothA2dp, .mic, .wakeup, .usbHeadset, .usbArmHeadset, .remoteCast, .fileSink,
    .fileSource]

def name : DeviceType → String
  | .none => "None"
  | .invalid => "Invalid"
  | .earpiece => "Earpiece"
  | .speaker => "Speaker"
  | .wiredHeadset => "WiredHeadset"
  | .wiredHeadphones => "WiredHeadphones"
  | .bluetoothSco => "BluetoothSco"
  | .bluetoothA2dp => "BluetoothA2dp"
  | .mic => "Mic"
  | .wakeup => "Wakeup"
  | .usbHeadset => "UsbHeadset"
  | .usbArmHeadset => "UsbArmHeadset"
  | .remoteCast => "RemoteCast"
  | .fileSink => "FileSink"
  | .fileSource => "FileSource"

def code : DeviceType → Int32
  | .none => -1
  | .invalid => 0
  | .earpiece => 1
  | .speaker => 2
  | .wiredHeadset => 3
  | .wiredHeadphones => 4
  | .bluetoothSco => 7
  | .bluetoothA2dp => 8
  | .mic => 15
  | .wakeup => 16
  | .usbHeadset => 22
  | .usbArmHeadset => 23
  | .remoteCast => 24
  | .fileSink => 50
  | .fileSource => 51

def ofCode? (c : Int32) : Option DeviceType :=
  all.find? (·.code == c)

/-- The role of a device of which only the type is known. -/
def defaultRole : DeviceType → DeviceRole
  | .none | .invalid => .none
  | .mic | .wakeup | .fileSource => .input
  | _ => .output

end DeviceType

instance : Named DeviceType := ⟨DeviceType.all, DeviceType.name⟩

namespace DeviceRole

def all : List DeviceRole := [.none, .input, .output]

def name : DeviceRole → String
  | .none => "None"
  | .input => "Input"
  | .output => "Output"

def code : DeviceRole → Int32
  | .none => -1
  | .input => 1
  | .output => 2

def ofCode? (c : Int32) : Option DeviceRole :=
  all.find? (·.code == c)

end DeviceRole

instance : Named DeviceRole := ⟨DeviceRole.all, DeviceRole.name⟩

namespace Privacy

def all : List Privacy := [.isPublic, .isPrivate]

def name : Privacy → String
  | .isPublic => "Public"
  | .isPrivate => "Private"

def code : Privacy → Int32
  | .isPublic => 0
  | .isPrivate => 1

def ofCode? (c : Int32) : Option Privacy :=
  all.find? (·.code == c)

end Privacy

instance : Named Privacy := ⟨Privacy.all, Privacy.name⟩

namespace DeviceUsage

def all : List DeviceUsage := [.media, .voice]

def name : DeviceUsage → String
  | .media => "Media"
  | .voice => "Voice"

end DeviceUsage

instance : Named DeviceUsage := ⟨DeviceUsage.all, DeviceUsage.name⟩

theorem DeviceType.ofCode?_code (t : DeviceType) : ofCode? t.code = some t := by
  cases t <;> decide

theorem DeviceRole.ofCode?_code (r : DeviceRole) : ofCode? r.code = some r := by
  cases r <;> decide

theorem Privacy.ofCode?_code (p : Privacy) : ofCode? p.code = some p := by
  cases p <;> decide

end Patchbay
