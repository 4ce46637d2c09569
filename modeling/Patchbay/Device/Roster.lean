import Patchbay.Device.PrivacyTable
import Patchbay.Inbox
import Patchbay.Table

/-!
# The device roster

The set of connected devices, kept in connection order and by partition. Each change gets the
next generation number and goes to every open subscription.
-/
namespace Patchbay

/-- The connected devices. -/
structure Roster where
  table : PrivacyTable := PrivacyTable.builtIn
  /-- The types of the fallback output and input. -/
  defaultRender : DeviceType := .speaker
  defaultCapture : DeviceType := .mic
  /-- How often devices came and went, without a bound; in 64 bits the count would start again
  after 2 ^ 64 changes. -/
  generation : Nat := 0
  /-- In connection order; a device that is connected again moves to the end. -/
  connected : List Device := []
  partitions : Table Partition (List Device) := ∅
  /-- One inbox for every subscription that was ever made. -/
  subscribers : Inboxes DeviceChange := []
deriving Repr

/-- The device connected last; of two with the same time the later entry. -/
def latestDevice (ds : List Device) : Device :=
  let newer (best : Option Device) (d : Device) : Option Device :=
    match best with
    | some b => if b.connectedAt > d.connectedAt then some b else some d
    | none => some d
  (ds.foldl newer none).getD .none

namespace Roster

def classify (r : Roster) (d : Device) : List Partition :=
  r.table.classify d

/-- The members of a partition, in connection order. -/
def partition (r : Roster) (p : Partition) : List Device :=
  (r.partitions.get? p).getD []

/-- Starts a subscription and answers its number. -/
def subscribe (r : Roster) : Nat × Roster :=
  let (i, boxes) := r.subscribers.join
  (i, { r with subscribers := boxes })

/-- The partitions in which the endpoint of `d` is. -/
def occupied (r : Roster) (d : Device) : List Partition :=
  Partition.all.filter fun p => (r.partition p).any (·.sameEndpoint d)

/-- The roster without the endpoint of `d`. -/
def without (r : Roster) (d : Device) : Roster :=
  { r with
    connected := r.connected.filter (!·.sameEndpoint d)
    partitions := r.partitions.mapValues fun _ ds => ds.filter (!·.sameEndpoint d) }

/-- Appends `d` to the connected devices and to the given partitions. -/
def append (r : Roster) (d : Device) (ps : List Partition) : Roster :=
  { r with
    connected := r.connected ++ [d]
    partitions := ps.foldl (fun t p => t.put p ((t.get? p).getD [] ++ [d])) r.partitions }

/-- Numbers a change and sends it to all subscribers. -/
def publish (r : Roster) (kind : ChangeKind) (d : Device) (ps : List Partition) :
    DeviceChange × Roster :=
  let change : DeviceChange :=
    { generation := r.generation + 1, kind := kind, device := d, partitions := ps }
  (change, { r with
    generation := r.generation + 1
    subscribers := r.subscribers.sendAll change })

/-- The description under which a device is kept: a missing connection time is the time `now`,
and the privacy class is that of its first partition that has one. -/
def stamp (r : Roster) (now : UInt64) (d : Device) : Device :=
  let d := if d.connectedAt = 0 then { d with connectedAt := now } else d
  match (r.classify d).findSome? Partition.privacy with
  | some p => { d with privacy := p }
  | none => d

/-- Adds a device, or refreshes it if its endpoint is already in a partition. -/
def connect (r : Roster) (now : UInt64) (d : Device) : DeviceChange × Roster :=
  let d := r.stamp now d
  let joined := r.classify d
  let left := r.occupied d
  let kind := if left.isEmpty then ChangeKind.connected else .reconnected
  ((r.without d).append d joined).publish kind d
    (Partition.all.filter fun p => left.contains p || joined.contains p)

/-- Removes the endpoint of `d`; an unknown one changes nothing. -/
def disconnect (r : Roster) (d : Device) : Option DeviceChange × Roster :=
  match r.connected.find? (·.sameEndpoint d) with
  | none => (none, r)
  | some known =>
    let (change, r) := (r.without d).publish .disconnected known (r.occupied d)
    (some change, r)

/-- The devices of one role and privacy class, in connection order. -/
def devices (r : Roster) (role : DeviceRole) (privacy : Privacy) : List Device :=
  r.connected.filter fun d =>
    Partition.all.any fun p =>
      p.role = role && p.privacy = some privacy && (r.partition p).any (·.sameEndpoint d)

/-- The latest connected device of a type and role. -/
def latestOf (r : Roster) (t : DeviceType) (role : DeviceRole) : Device :=
  latestDevice (r.connected.filter fun d => d.type = t && d.role = role)

def defaultRenderDevice (r : Roster) : Device :=
  r.latestOf r.defaultRender .output

def defaultCaptureDevice (r : Roster) : Device :=
  r.latestOf r.defaultCapture .input

end Roster
end Patchbay
