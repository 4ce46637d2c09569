import Patchbay.Device.Kind

/-!
# Devices

A device is described by its type, role, the time it was connected, its privacy class and the
three texts that tell it apart from others of its type. Two descriptions are the same endpoint
if type, hardware address and network agree: the role is left out, because a device that comes
back may come back in another role.
-/
namespace Patchbay

/-- The network every device of this machine is on. -/
def localNetwork : String := "LocalDevice"

/-- One physical or virtual audio endpoint. -/
structure Device where
  type : DeviceType
  role : DeviceRole
  /-- Milliseconds; zero if the device was never connected. -/
  connectedAt : UInt64 := 0
  privacy : Privacy := .isPublic
  network : String := localNetwork
  mac : String := ""
  name : String := ""
deriving DecidableEq, Repr

namespace Device

/-- The answer of a query that finds no device. -/
def none : Device := { type := .none, role := .none }

instance : Inhabited Device := ⟨none⟩

def isNone (d : Device) : Bool :=
  d.type = .none

def isRemote (d : Device) : Bool :=
  d.network ≠ localNetwork

def sameEndpoint (d e : Device) : Bool :=
  d.type = e.type && d.mac = e.mac && d.network = e.network

/-- The one-line form used in reports. -/
def describe (d : Device) : String :=
  s!"{d.type.name}/{d.role.name}@{d.connectedAt}"

theorem sameEndpoint_iff {d e : Device} :
    d.sameEndpoint e ↔ d.type = e.type ∧ d.mac = e.mac ∧ d.network = e.network := by
  simp [sameEndpoint, and_assoc]

theorem sameEndpoint_refl (d : Device) : d.sameEndpoint d := by
  simp [sameEndpoint]

theorem sameEndpoint_symm {d e : Device} (h : d.sameEndpoint e) : e.sameEndpoint d := by
  simp_all [sameEndpoint]

theorem sameEndpoint_trans {d e f : Device} (h : d.sameEndpoint e) (k : e.sameEndpoint f) :
    d.sameEndpoint f := by
  simp_all [sameEndpoint]

end Device
end Patchbay
