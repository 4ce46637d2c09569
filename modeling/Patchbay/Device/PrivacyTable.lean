import Patchbay.Device.Partition

/-!
# The privacy table

Rows that say which types of device are private or public, in which roles and for which usages.
A device belongs to a partition if some row admits it there.
-/
namespace Patchbay

structure PrivacyRow where
  type : DeviceType
  privacy : Privacy
  roles : List DeviceRole
  usages : List DeviceUsage
deriving DecidableEq, Repr

abbrev PrivacyTable := List PrivacyRow

/-- Whether the row puts devices of type `t` into partition `p`. A partition without a usage of
its own takes any row that names one. -/
def PrivacyRow.admits (row : PrivacyRow) (t : DeviceType) (p : Partition) : Bool :=
  row.type = t && p.privacy = some row.privacy && row.roles.contains p.role &&
    match p.usage with
    | some u => row.usages.contains u
    | none => !row.usages.isEmpty

namespace PrivacyTable

/-- The table used where the settings have no rows. -/
def builtIn : PrivacyTable :=
  [⟨.bluetoothA2dp, .isPrivate, [.output], [.media]⟩,
    ⟨.bluetoothSco, .isPrivate, [.output, .input], [.voice]⟩,
    ⟨.wiredHeadset, .isPrivate, [.output, .input], [.media, .voice]⟩,
    ⟨.wiredHeadphones, .isPrivate, [.output], [.media, .voice]⟩,
    ⟨.usbHeadset, .isPrivate, [.output, .input], [.media, .voice]⟩,
    ⟨.usbArmHeadset, .isPrivate, [.output, .input], [.media, .voice]⟩,
    ⟨.earpiece, .isPrivate, [.output], [.voice]⟩,
    ⟨.speaker, .isPublic, [.output], [.media, .voice]⟩,
    ⟨.mic, .isPublic, [.input], [.media, .voice]⟩,
    ⟨.remoteCast, .isPublic, [.output], [.media]⟩,
    ⟨.fileSink, .isPublic, [.output], [.media]⟩,
    ⟨.fileSource, .isPublic, [.input], [.media]⟩]

/-- The remote partition of a device on another network. -/
def remotePart (d : Device) : List Partition :=
  if d.isRemote then
    match d.role with
    | .output => [.remoteRender]
    | .input => [.remoteCapture]
    | .none => []
  else []

/-- The partitions of a device: the remote one first, then those its rows admit it to. -/
def classify (table : PrivacyTable) (d : Device) : List Partition :=
  remotePart d ++
    Partition.all.filter fun p => d.role = p.role && table.any (·.admits d.type p)

end PrivacyTable
end Patchbay
