import Patchbay.Report.Streams
import Patchbay.Wire.Frame

/-!
# Reports of messages
-/
namespace Patchbay.Wire

instance : Reported ParameterChange where
  report c := .of "n net key condition value"
    ("Parameter", c.network, c.key, c.condition, c.value)

instance : Reported Notification where
  report
    | .deviceChanged id a b => .of "n id previous current" ("DeviceChanged", id, a, b)
    | .teardown id reason => .of "n id reason" ("Teardown", id, reason)
    | .parameter c => report c

instance : Reported SessionNotice := ⟨fun n => report (Notification.ofNotice n)⟩

instance : Reported BufferHandle where
  report h := .of "id span_count span_size" (h.id, h.spanCount, h.spanSize)

instance : Reported BufferInfo where
  report i := .of "handle read write frames_written frames_read underruns overruns last_ts"
    (i.handle, i.readCursor, i.writeCursor, i.framesWritten, i.framesRead, i.underruns,
      i.overruns, i.lastTimestamp)

instance : Reported Request where
  report r :=
    let k := r.kind
    match r with
    | .createSession c => .of "r config" (k, c)
    | .resolveBuffer id | .start id | .resume id | .stop id | .release id | .handleInfo id =>
      .of "r id" (k, id)
    | .pause id discard => .of "r id flush" (k, id, discard)
    | .devices role privacy => .of "r role privacy" (k, role, privacy)
    | .setVolume g v => .of "r stream volume" (k, g, v)
    | .volume g | .isMuted g | .isActive g => .of "r stream" (k, g)
    | .setMuted g m => .of "r stream muted" (k, g, m)
    | .setDeviceActive t a => .of "r type active" (k, t, a)
    | .isDeviceActive t => .of "r type" (k, t)
    | .setRinger m => .of "r mode" (k, m)
    | .ringer => .of "r" k
    | .parameter key => .of "r key" (k, key)
    | .setParameter key value => .of "r key value" (k, key, value)
    | .remoteParameter net key c => .of "r net key condition" (k, net, key, c)
    | .setRemoteParameter net key c value =>
      .of "r net key condition value" (k, net, key, c, value)

instance : Reported Response where
  report
    | .empty => .of "r" "Empty"
    | .session id d => .of "r id device" ("Session", id, d)
    | .handle h path => .of "r handle path" ("Handle", h, path)
    | .handleInfo i => (report i).set "r" (.text "HandleInfo")
    | .devices ds => .of "r devices" ("Devices", ds)
    | .volume v => .of "r volume" ("Volume", v)
    | .flag b => .of "r flag" ("Flag", b)
    | .ringerMode m => .of "r mode" ("RingerMode", m)
    | .parameter value => .of "r value" ("Parameter", value)

/-- The value of a response alone. -/
def Response.value : Response → Report
  | .empty => report ()
  | .session id d => .of "id device" (id, d)
  | .handle h path => .of "handle path" (h, if path == "" then none else some path)
  | .handleInfo i => report i
  | .devices ds => report ds
  | .volume v => report v
  | .flag b => report b
  | .ringerMode m => report m
  | .parameter value => report value

/-- Whether a client has a call of its own for the requests of a kind, one that answers the value
alone. -/
def RequestKind.hasCall : RequestKind → Bool
  | .setMuted | .isMuted | .isActive | .setDeviceActive | .isDeviceActive | .setRinger | .ringer
  | .remoteParameter | .setRemoteParameter => false
  | _ => true

end Patchbay.Wire
