import Patchbay.Device.Partition
import Patchbay.Device.PrivacyTable
import Patchbay.Report.Errors
import Patchbay.Level.Volume
import Patchbay.Route.Switchboard

/-!
# Reports of devices, rings and sessions
-/
namespace Patchbay

instance : Reported Device where
  report d := .of "type role ts privacy net mac name"
    (d.type, d.role, d.connectedAt, d.privacy, d.network, d.mac, d.name)

instance : Reported DeviceChange where
  report c := .of "generation kind device partitions touches_in touches_out"
    (c.generation, c.kind.name, c.device, c.partitions, c.touchesRole .input,
      c.touchesRole .output)

instance : Reported PrivacyRow where
  report r := .of "type privacy roles usages" (r.type, r.privacy, r.roles, r.usages)

/-- The use of a stream, as one field. -/
def StreamIntent.column : StreamIntent → String × Report
  | .render u => ("render", report u)
  | .capture s => ("capture", report s)

instance : Reported StreamConfig where
  report c :=
    let (name, use) := c.intent.column
    .of ("rate ch fmt uid total span " ++ name) (c.info.sampleRate, c.info.channels,
      c.info.format, c.uid, c.totalFrames, c.spanFrames, use)

instance : Reported RingGeometry := ⟨fun g => report [g.spanCount, g.spanSize]⟩

instance : Reported Handle where
  report h := .of "id span_count span_size" (h.id, h.spanCount, h.spanSize)

instance : Reported SpanRead where
  report r := .of "n data ts" (r.data.length, r.data, r.timestamp)

instance : Reported FilledRead where
  report r := .of "bytes_read underrun ts data" (r.bytesRead, r.underrun, r.timestamp, r.data)

/-- A ring through one of its mappings. -/
def RingMapping.report (r : RingMapping) (m : Memory) : Report :=
  let (read, write) := cursors m
  .of "read write readable released" (read, write, readable m, r.isReleased m)

instance : Reported Position where
  report p := .of "frames_written frames_read underruns overruns"
    (p.framesWritten, p.framesRead, p.underruns, p.overruns)

instance : Reported HandleInfo where
  report i := .of "handle read write frames_written frames_read underruns overruns last_ts"
    (i.handle, i.readCursor, i.writeCursor, i.position.framesWritten, i.position.framesRead,
      i.position.underruns, i.position.overruns, i.lastTimestamp)

instance : Reported Controls where
  report c := .of "volume muted gain" (c.volume, c.isMuted, c.gain)

instance : Reported SessionEvent where
  report
    | .released id => .of "event id" ("Released", id)
    | .invalidated id reason => .of "event id reason" ("Invalidated", id, reason)

instance : Reported Session where
  report s :=
    let (read, write) := RingMapping.cursors s.ring.memory
    .of "state terminal pending epoch read write released" (s.state.name, s.isTerminal,
      s.isPending, s.epoch, read, write, s.ring.isReleased)

/-- The state of a session; a mark shows that it waits for a device. -/
def Session.brief (s : Session) : String :=
  s.state.name ++ if s.isPending then "~" else ""

/-- A table of numbered things as a record. -/
def Table.numbered {α : Type} [Reported α] (t : Table Nat α) : Report :=
  .record (t.toList.map fun e => (toString e.1, Patchbay.report e.2))

/-- The states of sessions by their numbers. -/
def Session.states (sessions : List Session) : Report :=
  .record (sessions.map fun s => (toString s.id, .text s.brief))

instance : Reported RouteDecision := ⟨fun d => .of "device generation" (d.device, d.generation)⟩

/-- A registry in numbers. -/
instance : Reported Registry where
  report r := .of "len empty generation handles file" (r.listed.length, r.listed.isEmpty,
    r.generation, r.handles.size, r.home.isSome)

/-- Volume and mute of every class, and whether it plays. -/
def VolumeDesk.report (d : VolumeDesk) (r : Registry) : Report :=
  .list (VolumeClass.all.map fun c =>
    .list [Patchbay.report (d.volume c), .flag (d.isMuted c), .flag (isActive r c)])

end Patchbay
