import Patchbay.Server.Basic
import Patchbay.Wire.Dispatch

/-!
# Requests

What each request does. A connection can only reach the sessions that it made; to any other
number the answer is that there is no such session.
-/
namespace Patchbay.Server
open Wire (Request Response)

/-- Refuses a session that the connection does not own. -/
def owned (s : Server) (conn id : Nat) : Except Status Unit :=
  if (s.sessionsOf conn).contains id then
    match s.station.registry.get id with
    | .ok _ => .ok ()
    | .error e => .error e.status
  else .error .notFound

/-- An outcome without a value, as a response. -/
def emptyOr {ε : Type} (status : ε → Status) : Except ε Unit → Except Status Response
  | .ok () => .ok .empty
  | .error e => .error (status e)

/-- Puts a changed station into place. -/
def withStation {α : Type} (s : Server) (p : α × Station) : α × Server :=
  (p.1, { s with station := p.2 })

/-- Carries out a call on a session of the connection. -/
def onSession (s : Server) (conn id : Nat) (op : Session → Except StreamError Unit × Session) :
    Except Status Response × Server :=
  match s.owned conn id with
  | .error e => (.error e, s)
  | .ok () =>
    let (r, s) := s.withStation (s.station.apply id op)
    (emptyOr StreamError.status r, s)

/-- Carries out a call that only the policy of the station can refuse. -/
def onStation (s : Server) (p : Except PolicyError Unit × Station) :
    Except Status Response × Server :=
  let (r, s) := s.withStation p
  (emptyOr PolicyError.status r, s)

/-- Notes the owner of a new session, and has its notices forwarded if the connection takes
notifications. -/
def adopt (s : Server) (conn id box : Nat) : Server :=
  let s := { s with owners := s.owners.put conn (s.sessionsOf conn ++ [id]) }
  match s.links.get? conn with
  | none => s.closeFeed (.session box)
  | some link =>
    let link := { link with forwarders := link.forwarders ++ [⟨.session box, link.line⟩] }
    { s with links := s.links.put conn link }

/-- Makes a session with the volume of its class, routes it and gives it to the connection. -/
def createSession (s : Server) (conn : Nat) (config : StreamConfig) :
    Except Status Response × Server :=
  match s.station.registry.create config with
  | (.error e, registry) =>
    (.error e.status, { s with station := { s.station with registry := registry } })
  | (.ok session, registry) =>
    let st := { s.station with registry := registry }.attach session.id
    match st.register session with
    | (.error e, st) =>
      let registry := (st.registry.remove session.id).2
      (.error e.status, { s with station := { st with registry := registry } })
    | (.ok (decision, box), st) =>
      (.ok (.session (UInt64.ofNat session.id) decision.device),
        { s with station := st }.adopt conn session.id box)

/-- Releases a session. The connection has lost it even if the release is refused. -/
def release (s : Server) (conn id : Nat) : Except Status Response × Server :=
  match s.owned conn id with
  | .error e => (.error e, s)
  | .ok () =>
    let (r, registry) := s.station.registry.remove id
    (emptyOr StreamError.status r, { s with
      station := { s.station with registry := registry }
      owners := s.owners.modify conn fun ids => ids.filter (· ≠ id) })

/-- Hands the ring of a session over. It counts as handed over from the first time on. -/
def resolve (s : Server) (conn id : Nat) : Except Status Response × Server :=
  match s.owned conn id with
  | .error e => (.error e, s)
  | .ok () =>
    match s.station.apply id (·.resolve) with
    | (.error e, st) => (.error e.status, { s with station := st })
    | (.ok handle, st) =>
      let (claimed, registry) := st.registry.claim handle.id
      let s := { s with station := { st with registry := registry } }
      let path := ((registry.any? id).bind (·.ring.mapping.path)).getD ""
      match claimed with
      | .ok _ | .error (.alreadyTransferred _) => (.ok (.handle (.ofHandle handle) path), s)
      | .error e => (.error e.status, s)

/-- What a client may learn of a session. -/
def handleInfo (s : Server) (conn id : Nat) : Except Status Response :=
  match s.owned conn id, s.station.registry.get id with
  | .error e, _ => .error e
  | .ok (), .error e => .error e.status
  | .ok (), .ok session =>
    match session.handleInfo with
    | .ok info => .ok (.handleInfo (.ofInfo info))
    | .error e => .error e.status

/-- Carries out a request of a connection. -/
def handle (s : Server) (conn : Nat) (r : Request) : Except Status Response × Server :=
  let st := s.station
  match r with
  | .createSession config => s.createSession conn config
  | .resolveBuffer id => s.resolve conn id.toNat
  | .start id => s.onSession conn id.toNat (·.start)
  | .pause id discard => s.onSession conn id.toNat (·.pause discard)
  | .resume id => s.onSession conn id.toNat (·.resume)
  | .stop id => s.onSession conn id.toNat (·.stop)
  | .release id => s.release conn id.toNat
  | .handleInfo id => (s.handleInfo conn id.toNat, s)
  | .devices role privacy => (.ok (.devices (st.roster.devices role privacy)), s)
  | .setVolume c v => s.onStation (st.setVolume c v)
  | .volume c => (.ok (.volume (st.desk.volume c)), s)
  | .setMuted c m => (.ok .empty, { s with station := st.setMuted c m })
  | .isMuted c => (.ok (.flag (st.desk.isMuted c)), s)
  | .isActive c => (.ok (.flag (VolumeDesk.isActive st.registry c)), s)
  | .setDeviceActive t active => s.onStation (st.setDeviceActive t active)
  | .isDeviceActive t => (.ok (.flag (st.desk.isDeviceActive t)), s)
  | .setRinger m => (.ok .empty, { s with station := st.setRinger m })
  | .ringer => (.ok (.ringerMode st.desk.ringer), s)
  | .parameter key => (.ok (.parameter (st.parameters.get key)), s)
  | .setParameter key value => s.onStation (st.setParameter key value)
  | .remoteParameter network key condition =>
    (.ok (.parameter (st.parameters.getRemote network key condition)), s)
  | .setRemoteParameter network key condition value =>
    s.onStation (st.setRemoteParameter network key condition value)

/-- One request message of a connection in, one response message out. -/
def dispatch (s : Server) (conn : Nat) (message : List UInt8) : List UInt8 × Server :=
  Wire.dispatch s.token (fun r s => s.handle conn r) message s

end Patchbay.Server
