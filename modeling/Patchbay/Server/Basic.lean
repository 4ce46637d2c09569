import Patchbay.Station
import Patchbay.Wire.Response
import Patchbay.Wire.Notification

/-!
# Servers

A server lets clients use a station over connections. A session belongs to the connection that
made it and ends with it. What the owner of a session is told, and every change of a parameter,
is forwarded to the line of the connection, the queue of its notifications.
-/
namespace Patchbay

/-- An inbox whose contents are forwarded. -/
inductive Feed where
  | session (box : Nat)
  | parameters (box : Nat)
deriving DecidableEq, Repr

/-- A forwarder takes what arrives in a feed to a line. -/
structure Forwarder where
  feed : Feed
  line : Nat
deriving DecidableEq, Repr

/-- A connection that takes notifications. -/
structure Link where
  line : Nat
  forwarders : List Forwarder
deriving DecidableEq, Repr

structure Server where
  station : Station := {}
  /-- What every request must begin with. -/
  token : String := "audiod.IAudioProcess"
  /-- The sessions of each connection, in the order in which they were made. -/
  owners : Table Nat (List Nat) := ∅
  links : Table Nat Link := ∅
  /-- One line for each time a connection was linked. -/
  lines : Inboxes Wire.Notification := []
  /-- Forwarders of links that another link of the same connection took the place of. -/
  strays : List Forwarder := []
deriving Inhabited

namespace Server

def isLinked (s : Server) (conn : Nat) : Bool := s.links.has conn

def sessionsOf (s : Server) (conn : Nat) : List Nat :=
  (s.owners.get? conn).getD []

/-- Ends a subscription. -/
def closeFeed (s : Server) (feed : Feed) : Server :=
  let st := s.station
  match feed with
  | .session box =>
    { s with station := { st with board := { st.board with board := st.board.board.close box } } }
  | .parameters box => { s with station := { st with parameters := st.parameters.close box } }

/-- What waits in a feed. -/
def takeFeed (s : Server) (feed : Feed) : List Wire.Notification × Server :=
  let st := s.station
  match feed with
  | .session box =>
    let (notices, board) := st.board.board.take box
    (notices.map .ofNotice,
      { s with station := { st with board := { st.board with board := board } } })
  | .parameters box =>
    let (changes, parameters) := st.parameters.take box
    (changes.map .parameter, { s with station := { st with parameters := parameters } })

/-- Forwards what waits in a feed. If nobody reads the line any more the subscription ends. -/
def forward (s : Server) (f : Forwarder) : Server :=
  match s.takeFeed f.feed with
  | ([], s) => s
  | (notes, s) =>
    if s.lines.isOpen f.line then
      { s with lines := notes.foldl (fun lines n => lines.sendTo f.line n) s.lines }
    else s.closeFeed f.feed

def forwarders (s : Server) : List Forwarder :=
  s.strays ++ s.links.values.flatMap (·.forwarders)

/-- Forwards all that waits. -/
def forwardAll (s : Server) : Server :=
  s.forwarders.foldl forward s

/-- What waits on a line. -/
def takeLine (s : Server) (line : Nat) : List Wire.Notification × Server :=
  let (notes, lines) := s.lines.take line
  (notes, { s with lines := lines })

/-- Nobody reads a line any more. -/
def closeLine (s : Server) (line : Nat) : Server :=
  { s with lines := s.lines.close line }

/-- Links a connection and answers its line. An earlier link of the connection is forgotten, but
its forwarders go on. -/
def connect (s : Server) (conn : Nat) : Nat × Server :=
  let (box, parameters) := s.station.parameters.listen
  let (line, lines) := s.lines.join
  let old := ((s.links.get? conn).map (·.forwarders)).getD []
  (line, { s with
    station := { s.station with parameters := parameters }
    lines := lines
    links := s.links.put conn ⟨line, [⟨.parameters box, line⟩]⟩
    strays := s.strays ++ old })

/-- Why sessions end with their connection. -/
def lostReason : String := "client connection lost"

/-- Ends a session of a connection that was lost, unless it has ended already. -/
def abandon (r : Registry) (id : Nat) : Registry :=
  match r.find? id with
  | none => r
  | some session => if session.isTerminal then r else r.invalidate id lostReason

/-- A connection goes away: its forwarders stop, and the sessions that it still owns end and are
taken off the list. -/
def disconnect (s : Server) (conn : Nat) : Server :=
  let ended := ((s.links.get? conn).map (·.forwarders)).getD []
  let s := ended.foldl (fun s f => s.closeFeed f.feed) s
  let registry := (s.sessionsOf conn).foldl abandon s.station.registry
  { s with
    links := s.links.erase conn
    owners := s.owners.erase conn
    station := { s.station with registry := registry.reap.2 } }

end Server
end Patchbay
