import Patchbay.Device.Kind
import Patchbay.Named

/-!
# What streams are for

A stream plays sound for some usage or records it from some source. Usage and source decide the
route category, by which a device is chosen, and the volume class, by which a playing stream is
governed.
-/
namespace Patchbay

/-- What a playing stream is used for. -/
inductive StreamUsage where
  | unknown
  | media
  | music
  | voiceCommunication
  | voiceAssistant
  | alarm
  | voiceMessage
  | ringtone
  | notification
  | accessibility
  | system
  | movie
  | game
  | audiobook
  | navigation
  | dtmf
  | enforcedTone
  | ultrasonic
  | voiceRingtone
  | voiceModemCommunication
deriving DecidableEq, Repr, Inhabited

/-- Where a recording stream gets its sound from. -/
inductive SourceType where
  | mic
  | voiceRecognition
  | playbackCapture
  | wakeup
  | voiceCommunication
  | ultrasonic
  | virtualCapture
deriving DecidableEq, Repr, Inhabited

/-- The kinds of stream that have a chain of route rules each. -/
inductive RouteCategory where
  | mediaRender
  | callRender
  | ringRender
  | toneRender
  | recordCapture
  | callCapture
deriving DecidableEq, Repr, Inhabited

/-- The classes of playing streams that share a volume. -/
inductive VolumeClass where
  | voiceCall
  | music
  | ring
  | notification
  | alarm
  | voiceAssistant
deriving DecidableEq, Repr, Inhabited

inductive RingerMode where
  | normal
  | silent
  | vibrate
deriving DecidableEq, Repr, Inhabited

/-- Keys of the parameters of other machines. -/
inductive RemoteKey where
  | none
  | volume
  | interrupt
  | state
  | lowPower
deriving DecidableEq, Repr, Inhabited

namespace RouteCategory

def all : List RouteCategory :=
  [.mediaRender, .callRender, .ringRender, .toneRender, .recordCapture, .callCapture]

def name : RouteCategory → String
  | .mediaRender => "MediaRender"
  | .callRender => "CallRender"
  | .ringRender => "RingRender"
  | .toneRender => "ToneRender"
  | .recordCapture => "RecordCapture"
  | .callCapture => "CallCapture"

def role : RouteCategory → DeviceRole
  | .recordCapture | .callCapture => .input
  | _ => .output

end RouteCategory

instance : Named RouteCategory := ⟨RouteCategory.all, RouteCategory.name⟩

namespace VolumeClass

def all : List VolumeClass :=
  [.voiceCall, .music, .ring, .notification, .alarm, .voiceAssistant]

def name : VolumeClass → String
  | .voiceCall => "VoiceCall"
  | .music => "Music"
  | .ring => "Ring"
  | .notification => "Notification"
  | .alarm => "Alarm"
  | .voiceAssistant => "VoiceAssistant"

def code : VolumeClass → Int32
  | .voiceCall => 0
  | .music => 1
  | .ring => 2
  | .notification => 5
  | .alarm => 4
  | .voiceAssistant => 9

def ofCode? (c : Int32) : Option VolumeClass :=
  all.find? (·.code == c)

/-- The key of the class in volume settings. -/
def label : VolumeClass → String
  | .voiceCall => "voice_call"
  | .music => "music"
  | .ring => "ring"
  | .notification => "notification"
  | .alarm => "alarm"
  | .voiceAssistant => "voice_assistant"

end VolumeClass

instance : Named VolumeClass := ⟨VolumeClass.all, VolumeClass.name⟩

namespace StreamUsage

def all : List StreamUsage :=
  [.unknown, .media, .music, .voiceCommunication, .voiceAssistant, .alarm, .voiceMessage,
    .ringtone, .notification, .accessibility, .system, .movie, .game, .audiobook, .navigation,
    .dtmf, .enforcedTone, .ultrasonic, .voiceRingtone, .voiceModemCommunication]

def name : StreamUsage → String
  | .unknown => "Unknown"
  | .media => "Media"
  | .music => "Music"
  | .voiceCommunication => "VoiceCommunication"
  | .voiceAssistant => "VoiceAssistant"
  | .alarm => "Alarm"
  | .voiceMessage => "VoiceMessage"
  | .ringtone => "Ringtone"
  | .notification => "Notification"
  | .accessibility => "Accessibility"
  | .system => "System"
  | .movie => "Movie"
  | .game => "Game"
  | .audiobook => "Audiobook"
  | .navigation => "Navigation"
  | .dtmf => "Dtmf"
  | .enforcedTone => "EnforcedTone"
  | .ultrasonic => "Ultrasonic"
  | .voiceRingtone => "VoiceRingtone"
  | .voiceModemCommunication => "VoiceModemCommunication"

def code : StreamUsage → Int32
  | .unknown => 0
  | .media => 1
  | .music => 101
  | .voiceCommunication => 2
  | .voiceAssistant => 3
  | .alarm => 4
  | .voiceMessage => 5
  | .ringtone => 6
  | .notification => 7
  | .accessibility => 8
  | .system => 9
  | .movie => 10
  | .game => 11
  | .audiobook => 12
  | .navigation => 13
  | .dtmf => 14
  | .enforcedTone => 15
  | .ultrasonic => 16
  | .voiceRingtone => 25
  | .voiceModemCommunication => 26

def ofCode? (c : Int32) : Option StreamUsage :=
  all.find? (·.code == c)

/-- Ringtones are heard on the devices for calls. -/
def isRingtone : StreamUsage → Bool
  | .ringtone | .voiceRingtone => true
  | _ => false

def category : StreamUsage → RouteCategory
  | .voiceCommunication | .voiceAssistant | .voiceMessage | .voiceModemCommunication =>
    .callRender
  | .alarm | .ringtone | .voiceRingtone | .ultrasonic => .ringRender
  | .notification | .accessibility | .system | .dtmf | .enforcedTone => .toneRender
  | _ => .mediaRender

/-- The volume class a usage is governed by. -/
def volumeClass (u : StreamUsage) : VolumeClass :=
  match u.category with
  | .callRender => .voiceCall
  | .ringRender => .ring
  | .toneRender => .notification
  | _ => .music

end StreamUsage

instance : Named StreamUsage := ⟨StreamUsage.all, StreamUsage.name⟩

namespace SourceType

def all : List SourceType :=
  [.mic, .voiceRecognition, .playbackCapture, .wakeup, .voiceCommunication, .ultrasonic,
    .virtualCapture]

def name : SourceType → String
  | .mic => "Mic"
  | .voiceRecognition => "VoiceRecognition"
  | .playbackCapture => "PlaybackCapture"
  | .wakeup => "Wakeup"
  | .voiceCommunication => "VoiceCommunication"
  | .ultrasonic => "Ultrasonic"
  | .virtualCapture => "VirtualCapture"

def code : SourceType → Int32
  | .mic => 0
  | .voiceRecognition => 1
  | .playbackCapture => 2
  | .wakeup => 3
  | .voiceCommunication => 7
  | .ultrasonic => 8
  | .virtualCapture => 9

def ofCode? (c : Int32) : Option SourceType :=
  all.find? (·.code == c)

def category : SourceType → RouteCategory
  | .voiceCommunication | .virtualCapture => .callCapture
  | _ => .recordCapture

end SourceType

instance : Named SourceType := ⟨SourceType.all, SourceType.name⟩

namespace RingerMode

def all : List RingerMode := [.normal, .silent, .vibrate]

def name : RingerMode → String
  | .normal => "Normal"
  | .silent => "Silent"
  | .vibrate => "Vibrate"

def code : RingerMode → Int32
  | .normal => 0
  | .silent => 1
  | .vibrate => 2

def ofCode? (c : Int32) : Option RingerMode :=
  all.find? (·.code == c)

end RingerMode

instance : Named RingerMode := ⟨RingerMode.all, RingerMode.name⟩

namespace RemoteKey

def all : List RemoteKey := [.none, .volume, .interrupt, .state, .lowPower]

def name : RemoteKey → String
  | .none => "None"
  | .volume => "Volume"
  | .interrupt => "Interrupt"
  | .state => "State"
  | .lowPower => "LowPower"

def code : RemoteKey → Int32
  | .none => 0
  | .volume => 1
  | .interrupt => 2
  | .state => 5
  | .lowPower => 1000

def ofCode? (c : Int32) : Option RemoteKey :=
  all.find? (·.code == c)

/-- The key as listeners see it. -/
def label : RemoteKey → String
  | .none => "none"
  | .volume => "volume"
  | .interrupt => "interrupt"
  | .state => "state"
  | .lowPower => "low_power"

end RemoteKey

instance : Named RemoteKey := ⟨RemoteKey.all, RemoteKey.name⟩

/-- What a stream was made for. -/
inductive StreamIntent where
  | render (usage : StreamUsage)
  | capture (source : SourceType)
deriving DecidableEq, Repr

namespace StreamIntent

def category : StreamIntent → RouteCategory
  | .render u => u.category
  | .capture s => s.category

def role (i : StreamIntent) : DeviceRole :=
  i.category.role

/-- Recording streams have no volume class. -/
def volumeClass? : StreamIntent → Option VolumeClass
  | .render u => some u.volumeClass
  | .capture _ => none

def describe : StreamIntent → String
  | .render u => "Render(" ++ u.name ++ ")"
  | .capture s => "Capture(" ++ s.name ++ ")"

end StreamIntent

theorem VolumeClass.ofCode?_code (v : VolumeClass) : ofCode? v.code = some v := by
  cases v <;> decide

theorem StreamUsage.ofCode?_code (u : StreamUsage) : ofCode? u.code = some u := by
  cases u <;> decide

theorem SourceType.ofCode?_code (s : SourceType) : ofCode? s.code = some s := by
  cases s <;> decide

theorem RingerMode.ofCode?_code (m : RingerMode) : ofCode? m.code = some m := by
  cases m <;> decide

theorem RemoteKey.ofCode?_code (k : RemoteKey) : ofCode? k.code = some k := by
  cases k <;> decide

end Patchbay
