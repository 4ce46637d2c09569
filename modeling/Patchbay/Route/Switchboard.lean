import Patchbay.Route.Chain
import Patchbay.Route.Notice
import Patchbay.Session.Registry

/-!
# The switchboard

Keeps every registered session bound to the device that its route chain picks, and tells the
owner when that changes. Changes of the device set reach it in order but may reach it late, so
it routes by the devices that are connected now.
-/
namespace Patchbay

/-- Where a session was routed, and by which generation of the device set. -/
structure RouteDecision where
  device : Device
  generation : Nat
deriving DecidableEq, Repr

/-- A registered session. -/
structure RouteEntry where
  intent : StreamIntent
  uid : Int32
  decision : RouteDecision
deriving DecidableEq, Repr

structure Switchboard where
  chains : RouteChains
  entries : Table Nat RouteEntry := ∅
  board : NoticeBoard := {}
  /-- The output most recently given to a playing session. -/
  activeOutput : Device := Device.none

namespace Switchboard

/-- Remembers an output that a session was given. -/
def noteOutput (b : Switchboard) (i : StreamIntent) (d : Device) : Switchboard :=
  if i.role = .output && !d.isNone then { b with activeOutput := d } else b

/-- Routes a session, binds it and keeps track of it from now on. That there is no device is not
an error. The last answer is the inbox of its notices. -/
def register (b : Switchboard) (r : Roster) (reg : Registry) (s : Session) :
    Except PolicyError (RouteDecision × Nat) × Switchboard × Registry :=
  if b.entries.has s.id then (.error (.alreadyRegistered s.id), b, reg)
  else
    let d := b.chains.route r s.intent s.config.uid
    match reg.apply s.id (·.bind d) with
    | (.error e, reg) => (.error (.stream e), b, reg)
    | (.ok _, reg) =>
      let b := b.noteOutput s.intent d
      let decision : RouteDecision := ⟨d, r.generation⟩
      let (box, board) := b.board.subscribe s.id
      let entry : RouteEntry := ⟨s.intent, s.config.uid, decision⟩
      (.ok (decision, box), { b with board := board, entries := b.entries.put s.id entry }, reg)

/-- Stops keeping track of a session. -/
def unregister (b : Switchboard) (id : Nat) : Except PolicyError Unit × Switchboard :=
  if b.entries.has id then
    (.ok (), { b with entries := b.entries.erase id, board := (b.board.remove id).2 })
  else (.error (.sessionNotRegistered id), b)

def decision? (b : Switchboard) (id : Nat) : Option RouteDecision :=
  (b.entries.get? id).map (·.decision)

/-- Forgets a session and tells its owner why. -/
def tearDown (b : Switchboard) (id : Nat) (reason : String) : Switchboard :=
  let board := (b.board.notify id (.teardown id reason)).2
  { b with entries := b.entries.erase id, board := (board.remove id).2 }

/-- The reason for giving up a session that refuses a device. -/
def deadReason (reg : Registry) (id : Nat) (e : StreamError) : String :=
  match (reg.any? id).map Session.state with
  | some .released => "released"
  | some .invalid => "invalidated"
  | _ => s!"rebind failed: {e.message}"

/-- A change on its way through the registered sessions. -/
structure Sweep where
  board : Switchboard
  registry : Registry
  moved : Nat := 0
  /-- Sessions that refused their device, with the reason. -/
  dead : List (Nat × String) := []

/-- Routes one session anew. -/
def Sweep.visit (r : Roster) (change : DeviceChange) (w : Sweep) (e : Nat × RouteEntry) : Sweep :=
  let (id, entry) := e
  if !change.touchesRole entry.intent.role then w
  else
    let current := w.board.chains.route r entry.intent entry.uid
    let previous := entry.decision.device
    if current.sameEndpoint previous && current.role = previous.role then w
    else
      match w.registry.apply id (·.bind current) with
      | (.error e, reg) =>
        { w with registry := reg, dead := w.dead ++ [(id, deadReason reg id e)] }
      | (.ok _, reg) =>
        let b := w.board.noteOutput entry.intent current
        let moved := { entry with decision := ⟨current, change.generation⟩ }
        let notice := SessionNotice.deviceChanged id previous current
        { w with
          registry := reg
          moved := w.moved + 1
          board := { b with
            entries := b.entries.put id moved
            board := (b.board.notify id notice).2 } }

/-- Routes every session anew whose role the change touched; the answer counts those that moved.
When the active output goes away, the one that music would go to takes its place. -/
def handleChange (b : Switchboard) (r : Roster) (reg : Registry) (change : DeviceChange) :
    Nat × Switchboard × Registry :=
  let w := b.entries.toList.foldl (Sweep.visit r change) { board := b, registry := reg }
  let b := w.dead.foldl (fun b (id, reason) => b.tearDown id reason) w.board
  let gone := change.kind = .disconnected && b.activeOutput.sameEndpoint change.device
  let b := if gone then { b with activeOutput := b.chains.route r (.render .music) 0 } else b
  (w.moved, b, w.registry)

/-- Forgets a session that has ended. -/
def handleEvent (b : Switchboard) (event : SessionEvent) : Switchboard :=
  if b.entries.has event.sessionId then b.tearDown event.sessionId event.reason else b

/-- Handles changes and then events, each in the order of arrival. -/
def handleAll (b : Switchboard) (r : Roster) (reg : Registry) (changes : List DeviceChange)
    (events : List SessionEvent) : Switchboard × Registry :=
  let (b, reg) := changes.foldl (fun (b, reg) c => (b.handleChange r reg c).2) (b, reg)
  (events.foldl handleEvent b, reg)

end Switchboard
end Patchbay
