import Patchbay.Device.Descriptor
import Patchbay.Named

/-!
# Partitions

The named subsets in which connected devices are kept, and the changes of the device set.
-/
namespace Patchbay

/-- A named subset of the connected devices. -/
inductive Partition where
  | commRender (p : Privacy)
  | commCapture (p : Privacy)
  | mediaRender (p : Privacy)
  | mediaCapture (p : Privacy)
  | capture (p : Privacy)
  | remoteRender
  | remoteCapture
deriving DecidableEq, Repr, Inhabited

namespace Partition

def all : List Partition :=
  [.commRender .isPublic, .commRender .isPrivate, .commCapture .isPublic,
    .commCapture .isPrivate, .mediaRender .isPublic, .mediaRender .isPrivate,
    .mediaCapture .isPublic, .mediaCapture .isPrivate, .capture .isPublic,
    .capture .isPrivate, .remoteRender, .remoteCapture]

def role : Partition → DeviceRole
  | .commRender _ | .mediaRender _ | .remoteRender => .output
  | _ => .input

/-- Remote partitions have no privacy class. -/
def privacy : Partition → Option Privacy
  | .commRender p | .commCapture p | .mediaRender p | .mediaCapture p | .capture p => some p
  | .remoteRender | .remoteCapture => none

/-- The usage a device must be good for to be a member; none if any usage will do. -/
def usage : Partition → Option DeviceUsage
  | .commRender _ | .commCapture _ => some .voice
  | .mediaRender _ | .mediaCapture _ => some .media
  | _ => none

def name : Partition → String
  | .commRender p => "CommRender(" ++ p.name ++ ")"
  | .commCapture p => "CommCapture(" ++ p.name ++ ")"
  | .mediaRender p => "MediaRender(" ++ p.name ++ ")"
  | .mediaCapture p => "MediaCapture(" ++ p.name ++ ")"
  | .capture p => "Capture(" ++ p.name ++ ")"
  | .remoteRender => "RemoteRender"
  | .remoteCapture => "RemoteCapture"

theorem mem_all (p : Partition) : p ∈ all := by
  cases p <;> first | (rename_i q; cases q <;> decide) | decide

end Partition

instance : Named Partition := ⟨Partition.all, Partition.name⟩

inductive ChangeKind where
  | connected
  | reconnected
  | disconnected
deriving DecidableEq, Repr

def ChangeKind.name : ChangeKind → String
  | .connected => "Connected"
  | .reconnected => "Reconnected"
  | .disconnected => "Disconnected"

/-- One change of the device set, with the generation of the set that it made. -/
structure DeviceChange where
  generation : Nat
  kind : ChangeKind
  device : Device
  /-- The partitions that lost or gained the device. -/
  partitions : List Partition
deriving DecidableEq, Repr

/-- Whether the change concerns devices of this role. -/
def DeviceChange.touchesRole (c : DeviceChange) (r : DeviceRole) : Bool :=
  c.partitions.any (·.role = r)

end Patchbay
