import Patchbay.Server.Conversation
import Patchbay.Wire.ProcessClient

/-!
# Exchanges

A server together with its clients. A circuit is a client, the server's end of its connection,
and the bytes between them; on a circuit a client can attach itself to one stream, whose ring it
maps. A listener is a connection without a circuit, which only takes notifications.
-/
namespace Patchbay

structure Circuit where
  conversation : Conversation
  client : Wire.Client
deriving Repr

/-- The client of a stream here. Its mapping of the ring is named with the session it is of. -/
abbrev StreamClient := Wire.ProcessClient (Nat × RingMapping)

structure Exchange where
  server : Server
  circuits : Table Nat Circuit := ∅
  /-- The clients that are attached to a stream. -/
  streams : Table Nat StreamClient := ∅
  /-- The lines of connections without a circuit. -/
  listeners : Table Nat Nat := ∅
  /-- What a client is told that writes to a connection that is over. -/
  broken : String := "broken pipe"

namespace Circuit

/-- Carries what the client has written to the server, lets the server work, and carries back
what it has written. -/
def settle (s : Server) (c : Circuit) : Server × Circuit :=
  let (s, talk) := (c.conversation.receive c.client.outgoing).settle s
  (s, {
    conversation := { talk with sent := [] }
    client := { c.client with outgoing := [], incoming := c.client.incoming ++ talk.sent } })

/-- A whole call. Nothing can be written to a connection that is over, as `broken` says. -/
def call (broken : String) (s : Server) (c : Circuit) (r : Wire.Request) :
    Except WireError Wire.Response × Server × Circuit :=
  match c.client.send r with
  | (.error e, client) => (.error e, s, { c with client := client })
  | (.ok (), client) =>
    if c.conversation.isOver then (.error (.transferFailed broken), s, c)
    else
      let (s, c) := settle s { c with client := client }
      let (answer, client) := c.client.receive r.kind
      (answer, s, { c with client := client })

end Circuit

namespace Exchange

/-- Puts a changed station into place. -/
def withStation {α : Type} (x : Exchange) (p : α × Station) : α × Exchange :=
  (p.1, { x with server := { x.server with station := p.2 } })

/-- Connects a client that uses the given token. A client that the connection had goes, and when
the server learns of that it unlinks the connection. -/
def connect (x : Exchange) (conn : Nat) (token : String) : Exchange :=
  let (s, talk) := Conversation.start x.server conn
  let s := match x.circuits.get? conn with
    | some old => (old.conversation.finish.settle s).1
    | none => s
  { x with
    server := s
    circuits := x.circuits.put conn ⟨talk, { token := token }⟩
    streams := x.streams.erase conn }

/-- Links a connection without a circuit. -/
def listen (x : Exchange) (conn : Nat) : Exchange :=
  let (line, s) := x.server.connect conn
  { x with
    server := ((x.listeners.get? conn).map s.closeLine).getD s
    listeners := x.listeners.put conn line }

/-- The client of a connection goes; false if there was none. The server learns of it at once,
but it learns of a listener that has gone only when it has something for it. -/
def close (x : Exchange) (conn : Nat) : Bool × Exchange :=
  match x.circuits.get? conn, x.listeners.get? conn with
  | some c, _ =>
    let (s, _) := c.conversation.finish.settle x.server
    (true, { x with
      server := s
      circuits := x.circuits.erase conn
      streams := x.streams.erase conn })
  | none, some line =>
    (true, { x with server := x.server.closeLine line, listeners := x.listeners.erase conn })
  | none, none => (false, x)

/-- The server ends all connections. Their clients can still read what they have got. -/
def shutDown (x : Exchange) : Exchange :=
  x.circuits.keys.foldl
    (fun x conn =>
      match x.circuits.get? conn with
      | none => x
      | some c =>
        let (s, talk) := c.conversation.close x.server (.ok ())
        { x with server := s, circuits := x.circuits.put conn { c with conversation := talk } })
    x

/-- The connections with a client. -/
def connections (x : Exchange) : List Nat :=
  (x.listeners.keys ++ x.circuits.keys).eraseDups

/-- A call of the client of a connection. -/
def call (x : Exchange) (conn : Nat) (r : Wire.Request) :
    Except WireError Wire.Response × Exchange :=
  match x.circuits.get? conn with
  | none => (.error .peerClosed, x)
  | some c =>
    let (answer, s, c) := c.call x.broken x.server r
    (answer, { x with server := s, circuits := x.circuits.put conn c })

/-- What the client of a stream has for surroundings here. -/
def surroundings (conn : Nat) : Wire.Surroundings Exchange (Nat × RingMapping) where
  call r x := x.call conn r
  map path x := x.server.station.registry.openRing path
  geometry m := m.2.geometry

/-- Attaches the client of a connection to a new stream. If that fails the client goes. -/
def attach (x : Exchange) (conn : Nat) (config : StreamConfig) :
    Except WireError StreamClient × Exchange :=
  match Wire.ProcessClient.create (surroundings conn) config x with
  | (.error e, x) => (.error e, (x.close conn).2)
  | (.ok p, x) => (.ok p, { x with streams := x.streams.put conn p })

/-- Gives the stream of a client back. If that fails the client goes. -/
def detach (x : Exchange) (conn : Nat) (session : UInt64) : Except WireError Unit × Exchange :=
  match x.call conn (.release session) with
  | (.error e, x) => (.error e, (x.close conn).2)
  | (.ok _, x) => (.ok (), { x with streams := x.streams.erase conn })

/-- Delivers to one client what the server has for it. -/
def deliverTo (x : Exchange) (conn : Nat) : Exchange :=
  match x.circuits.get? conn with
  | none => x
  | some c =>
    let (s, c) := c.settle x.server
    { x with server := s, circuits := x.circuits.put conn c }

/-- Forwards and delivers all notifications. -/
def deliver (x : Exchange) : Exchange :=
  x.circuits.keys.foldl deliverTo { x with server := x.server.forwardAll }

/-- Handles the changes and events that wait. -/
def settleStation (x : Exchange) : Exchange :=
  (x.withStation ((), x.server.station.settle)).2

/-- The next notification of a client. -/
def nextNotification (x : Exchange) (conn : Nat) : Except WireError Wire.Notification × Exchange :=
  match x.circuits.get? conn with
  | none => (.error .peerClosed, x)
  | some c =>
    let (n, client) := c.client.nextNotification
    (n, { x with circuits := x.circuits.put conn { c with client := client } })

/-- Takes the notifications that a listener has got. -/
def takeListened (x : Exchange) (conn : Nat) : List Wire.Notification × Exchange :=
  match x.listeners.get? conn with
  | none => ([], x)
  | some line =>
    let (notes, s) := x.server.takeLine line
    (notes, { x with server := s })

/-- Takes the notifications that a client has got. The client of a stream heeds them. -/
def takeReceived (x : Exchange) (conn : Nat) : List Wire.Notification × Exchange :=
  match x.circuits.get? conn with
  | none => ([], x)
  | some c =>
    let (notes, client) := c.client.takeNotifications
    (notes, { x with
      circuits := x.circuits.put conn { c with client := client }
      streams := x.streams.modify conn fun p => notes.foldl (·.observe) p })

/-- Takes the notifications that a connection has got. -/
def takeNotifications (x : Exchange) (conn : Nat) : List Wire.Notification × Exchange :=
  let (heard, x) := x.takeListened conn
  let (received, x) := x.takeReceived conn
  (heard ++ received, x)

/-- Parameters first and then by session, each in the order of arrival. -/
def arrange (notes : List Wire.Notification) : List Wire.Notification :=
  let key (n : Wire.Notification) : Nat := (n.session?.map fun id => id.toNat + 1).getD 0
  notes.mergeSort fun m n => key m ≤ key n

/-- Takes the notifications of all connections that have got any. -/
def collect (x : Exchange) : Table Nat (List Wire.Notification) × Exchange :=
  x.connections.foldl
    (fun (t, x) conn =>
      let (notes, x) := x.takeNotifications conn
      (if notes.isEmpty then t else t.put conn (arrange notes), x))
    (∅, x)

end Exchange
end Patchbay
