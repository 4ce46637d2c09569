import Patchbay.Number.Shortest
import Patchbay.Session.Registry

/-!
# Volumes

Volume and mute of each class of playing streams, the ringer mode and the list of active
devices. Each change goes at once to the controls of every listed session of the class.
-/
namespace Patchbay

/-- Volume levels from the settings. Levels are whole steps between the bounds. -/
structure VolumeSettings where
  minLevel : UInt8 := 0
  maxLevel : UInt8 := 15
  defaultLevel : UInt8 := 7
  /-- Levels by class label, in the order of the labels. -/
  levels : Table String UInt8 := ∅
deriving DecidableEq, Repr

namespace VolumeSettings

def levelFor (v : VolumeSettings) (c : VolumeClass) : UInt8 :=
  (v.levels.get? c.label).getD v.defaultLevel

/-- The share that a level, cut to the bounds, is of the highest level. -/
def toVolume (v : VolumeSettings) (level : UInt8) : Single :=
  if v.maxLevel = 0 then Single.zero
  else
    let level := if level < v.minLevel then v.minLevel else if level > v.maxLevel then v.maxLevel
      else level
    Single.ofRatio false level.toNat v.maxLevel.toNat

end VolumeSettings

/-- Volume and mute of one class. -/
structure ClassVolume where
  volume : Single
  isMuted : Bool := false
deriving DecidableEq, Repr

structure VolumeDesk where
  classes : Table VolumeClass ClassVolume
  ringer : RingerMode := .normal
  /-- Most recently activated first. -/
  activeDevices : List Device := []
deriving Repr

namespace VolumeDesk

def ofSettings (v : VolumeSettings) : VolumeDesk where
  classes := .ofList (VolumeClass.all.map fun c => (c, { volume := v.toVolume (v.levelFor c) }))

/-- The entry of a class. -/
def entry (d : VolumeDesk) (c : VolumeClass) : ClassVolume :=
  (d.classes.get? c).getD { volume := Single.zero }

def volume (d : VolumeDesk) (c : VolumeClass) : Single := (d.entry c).volume

def isMuted (d : VolumeDesk) (c : VolumeClass) : Bool := (d.entry c).isMuted

/-- Whether a class is silent: by its own mute, or rings by the ringer mode. -/
def isSilent (d : VolumeDesk) (c : VolumeClass) : Bool :=
  d.isMuted c || (c = .ring && d.ringer ≠ .normal)

/-- The session with the controls that the desk wants. Recordings have no volume. -/
def adjust (d : VolumeDesk) (s : Session) : Session :=
  match s.intent.volumeClass? with
  | none => s
  | some c => { s with controls := (s.controls.setVolume (d.volume c)).setMuted (d.isSilent c) }

/-- Adjusts the listed sessions of one class, or of all. -/
def push (d : VolumeDesk) (only : Option VolumeClass) (reg : Registry) : Registry :=
  let wanted (s : Session) : Bool :=
    match s.intent.volumeClass?, only with
    | none, _ => false
    | some _, none => true
    | some c, some f => c = f
  reg.listed.foldl
    (fun reg id => reg.modify id fun s => if wanted s then d.adjust s else s) reg

/-- Applies the desk to one session. -/
def attach (d : VolumeDesk) (reg : Registry) (id : Nat) : Registry :=
  reg.modify id d.adjust

def setVolume (d : VolumeDesk) (reg : Registry) (c : VolumeClass) (v : Single) :
    Except PolicyError Unit × VolumeDesk × Registry :=
  if Single.zero.le v && v.le Single.one then
    let d := { d with classes := d.classes.modify c ({ · with volume := v }) }
    (.ok (), d, d.push (some c) reg)
  else (.error (.invalidParam s!"volume {v.toText} outside 0.0..=1.0"), d, reg)

def setMuted (d : VolumeDesk) (reg : Registry) (c : VolumeClass) (m : Bool) :
    VolumeDesk × Registry :=
  let d := { d with classes := d.classes.modify c ({ · with isMuted := m }) }
  (d, d.push (some c) reg)

def setRinger (d : VolumeDesk) (reg : Registry) (m : RingerMode) : VolumeDesk × Registry :=
  let d := { d with ringer := m }
  (d, d.push (some .ring) reg)

/-- Whether a session of the class is running. -/
def isActive (reg : Registry) (c : VolumeClass) : Bool :=
  reg.running.any fun s => s.intent.volumeClass? = some c

/-- Takes levels over from changed settings, also where a client had set another volume. -/
def applyLevels (d : VolumeDesk) (reg : Registry) (changes : List (VolumeClass × UInt8))
    (v : VolumeSettings) : VolumeDesk × Registry :=
  let set (t : Table VolumeClass ClassVolume) (change : VolumeClass × UInt8) :
      Table VolumeClass ClassVolume :=
    t.modify change.1 ({ · with volume := v.toVolume change.2 })
  let d := { d with classes := changes.foldl set d.classes }
  (d, d.push none reg)

/-- Puts a type of device at the front of the active ones, or takes it off the list; the only
active device of a role cannot be taken off. -/
def setDeviceActive (d : VolumeDesk) (t : DeviceType) (active : Bool) :
    Except PolicyError Unit × VolumeDesk :=
  let role := t.defaultRole
  let others := d.activeDevices.filter (·.type ≠ t)
  if role = .none then
    (.error (.unsupported s!"device type {t.name} cannot be activated"), d)
  else if active then
    (.ok (), { d with activeDevices := { type := t, role := role } :: others })
  else if (d.activeDevices.filter (·.role = role)).length ≤ 1 then
    (.error (.operationFailed s!"{t.name} is the only active {role.name} device"), d)
  else (.ok (), { d with activeDevices := others })

def isDeviceActive (d : VolumeDesk) (t : DeviceType) : Bool :=
  d.activeDevices.any (·.type = t)

end VolumeDesk
end Patchbay
