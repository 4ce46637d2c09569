import Patchbay.Endpoints
import Patchbay.Server.Exchange
import Patchbay.Settings.Reading

/-!
# The daemon

Everything put together as the settings want it: a server with its station, the endpoints, and a
socket for clients. While it runs, changed settings are taken over as far as they can be.
-/
namespace Patchbay

/-- Why the daemon cannot start. -/
inductive StartError where
  | settings (e : SettingsError)
  | routes (e : DeviceError)
  /-- The directory for ring files cannot be made. -/
  | bufferDir
  /-- The socket cannot be made. -/
  | socket
deriving DecidableEq, Repr

def StartError.message : StartError → String
  | settings e => s!"failed to load config: {e.message}"
  | routes e => s!"failed to build router chains: {e.message}"
  | bufferDir => "failed to create buffer dir"
  | socket => "failed to bind the socket"

structure Daemon where
  settings : Settings
  /-- The path of its socket. -/
  socket : String
  files : FileTree
  exchange : Exchange
  endpoints : Endpoints
  /-- The number of the next connection. -/
  nextConn : Nat := 1

namespace Daemon

/-- A socket whose path is empty or starts with a zero byte has no file. -/
def isFileless (path : String) : Bool :=
  path.toList.head?.all (· = '\x00')

/-- Makes the socket, in place of an old file at its path. Paths of sockets have fewer than 108
bytes; one without a file can have 108. -/
def bind (files : FileTree) (path : String) : Except StartError Unit × FileTree :=
  match if files.has path then files.remove path else .ok files with
  | .error _ => (.error .socket, files)
  | .ok files =>
    if isFileless path && path.utf8ByteSize ≤ 108 then (.ok (), files)
    else if 108 ≤ path.utf8ByteSize then (.error .socket, files)
    else
      match files.makeFile path with
      | .error _ => (.error .socket, files)
      | .ok (_, files) => (.ok (), files)

/-- Starts with the given settings, at the time `now`. What was made before a failure stays. -/
def start (known : List RouteRule) (now : UInt64) (process : String) (files : FileTree)
    (s : Settings) : Except StartError Daemon × FileTree :=
  match Station.ofSettings known now (some ⟨s.access.bufferDir, process⟩) s with
  | .error e => (.error (.routes e), files)
  | .ok station =>
    match files.makeDirectory s.access.bufferDir with
    | (.error _, files) => (.error .bufferDir, files)
    | (.ok (), files) =>
      match bind files s.access.socketPath with
      | (.error e, files) => (.error e, files)
      | (.ok (), files) =>
        (.ok {
          settings := s
          socket := s.access.socketPath
          files := files
          exchange := {
            server := { station := station.settle, token := s.access.token }
            broken := "<os>" }
          endpoints := (Endpoints.ofSettings {} { files := files } s).start }, files)

/-- Starts with a settings file. -/
def ofFile (known : List RouteRule) (now : UInt64) (process : String) (files : FileTree)
    (lookup : String → Option String) (file : Option (List UInt8)) :
    Except StartError Daemon × FileTree :=
  match Settings.ofFile lookup file with
  | .error e => (.error (.settings e), files)
  | .ok s => start known now process files s

/-- Ends all connections and removes the socket. -/
def stop (d : Daemon) : Daemon :=
  { d with
    files := (d.files.remove d.socket).toOption.getD d.files
    exchange := d.exchange.shutDown }

/-- A client connects; the answer is the number of its connection. -/
def accept (d : Daemon) (token : String) : Nat × Daemon :=
  (d.nextConn, { d with
    exchange := d.exchange.connect d.nextConn token
    nextConn := d.nextConn + 1 })

/-- The settings file has changed. One that cannot be read is ignored. -/
def reload (d : Daemon) (lookup : String → Option String) (file : Option (List UInt8)) : Daemon :=
  match Settings.ofFile lookup file with
  | .error _ => d
  | .ok new =>
    let server := d.exchange.server
    let station := server.station.reload (.between d.settings new) new
    { d with
      settings := new
      exchange := { d.exchange with server := { server with station := station } } }

/-- Handles what waits and delivers all notifications. -/
def settle (d : Daemon) : Daemon :=
  { d with exchange := d.exchange.settleStation.deliver }

/-- The client of a connection writes bytes; the answer is the bytes that it gets in return. -/
def converse (d : Daemon) (conn : Nat) (bytes : List UInt8) : List UInt8 × Daemon :=
  let writing (c : Circuit) : Circuit :=
    { c with client := { c.client with outgoing := c.client.outgoing ++ bytes } }
  let having (d : Daemon) (circuits : Table Nat Circuit) : Daemon :=
    { d with exchange := { d.exchange with circuits := circuits } }
  let d := having d (d.exchange.circuits.modify conn writing)
  let d := { d with exchange := d.exchange.deliver }.settle
  match d.exchange.circuits.get? conn with
  | none => ([], d)
  | some c =>
    (c.client.incoming,
      having d (d.exchange.circuits.put conn { c with client := { c.client with incoming := [] } }))

/-- One cycle of the endpoints. -/
def cycle (d : Daemon) (timestamp : UInt64) : Daemon :=
  let server := d.exchange.server
  let (endpoints, registry) := d.endpoints.cycle timestamp server.station.registry
  { d with
    endpoints := endpoints
    exchange := { d.exchange with
      server := { server with station := { server.station with registry := registry } } } }

end Daemon
end Patchbay
