import Patchbay.Session.Data
import Patchbay.Session.Lifecycle

/-!
# The session registry

All sessions that were ever made, which of them are listed, the handles and files of their rings
and the events they sent. A session that is no longer listed can still be held by others.
-/
namespace Patchbay

structure Registry where
  host : Host := {}
  /-- Where rings become files; rings are anonymous without it. -/
  home : Option Session.RingHome := none
  /-- Numbers without a bound; those of 64 bits would start again after 2 ^ 64 sessions. -/
  nextId : Nat := 1
  /-- Every session ever made, in the order of their numbers. -/
  sessions : Table Nat Session := ∅
  /-- The numbers of the listed sessions, in ascending order. -/
  listed : List Nat := []
  handles : HandleTable := {}
  files : Directory := ∅
  /-- How often the listed sessions changed, without a bound. In 64 bits the count would start
  again after 2 ^ 64 changes. -/
  generation : Nat := 0
  /-- Events not yet taken. -/
  events : List SessionEvent := []
deriving Inhabited

namespace Registry
variable {α : Type}

/-- A session, listed or not. -/
def any? (r : Registry) (id : Nat) : Option Session :=
  r.sessions.get? id

/-- A listed session. -/
def find? (r : Registry) (id : Nat) : Option Session :=
  if r.listed.contains id then r.any? id else none

def get (r : Registry) (id : Nat) : Except StreamError Session :=
  match r.find? id with
  | some s => .ok s
  | none => .error (.sessionNotFound id)

/-- The listed sessions in the order of their numbers. -/
def all (r : Registry) : List Session :=
  r.listed.filterMap r.any?

def running (r : Registry) : List Session :=
  r.all.filter (·.isRunning)

/-- Replaces a session. -/
def store (r : Registry) (s : Session) : Registry :=
  { r with sessions := r.sessions.put s.id s }

/-- Does what follows from the end of a session. -/
def settle (r : Registry) : Option Closing → Registry
  | none => r
  | some c =>
    { r with
      handles := r.handles.remove c.handle
      files := r.files.remove c.file
      events := r.events ++ c.event.toList }

/-- Applies an operation that does not end a session. -/
def apply (r : Registry) (id : Nat) (op : Session → Except StreamError α × Session) :
    Except StreamError α × Registry :=
  match r.any? id with
  | none => (.error (.sessionNotFound id), r)
  | some s =>
    let (a, s) := op s
    (a, r.store s)

/-- Changes a session. -/
def modify (r : Registry) (id : Nat) (f : Session → Session) : Registry :=
  { r with sessions := r.sessions.modify id f }

/-- Ends a session at its owner's wish. -/
def release (r : Registry) (id : Nat) : Except StreamError Unit × Registry :=
  match r.any? id with
  | none => (.error (.sessionNotFound id), r)
  | some s =>
    let (a, s, closing) := s.release
    (a, (r.store s).settle closing)

/-- Ends a session after a fault. -/
def invalidate (r : Registry) (id : Nat) (reason : String) : Registry :=
  match r.any? id with
  | none => r
  | some s =>
    let (s, closing) := s.invalidate reason
    (r.store s).settle closing

/-- Closes the ring of a session, which goes on without it. -/
def closeRing (r : Registry) (id : Nat) : Registry :=
  match r.any? id with
  | none => r
  | some s =>
    { r.store { s with ring := s.ring.release } with files := r.files.remove s.ringFile? }

/-- Makes a session and lists it. A number is used up even if that fails. -/
def create (r : Registry) (config : StreamConfig) : Except StreamError Session × Registry :=
  let id := r.nextId
  let (made, files, handles) := Session.create r.host r.home id config r.files r.handles
  let r := { r with nextId := id + 1, files := files, handles := handles }
  match made with
  | .error e => (.error e, r)
  | .ok s =>
    let s := { s with reports := true }
    (.ok s, { r.store s with listed := r.listed ++ [id], generation := r.generation + 1 })

/-- Releases a listed session and takes it off the list, even if the release is refused. -/
def remove (r : Registry) (id : Nat) : Except StreamError Unit × Registry :=
  match r.find? id with
  | none => (.error (.sessionNotFound id), r)
  | some _ =>
    let (a, r) := r.release id
    (a, { r with listed := r.listed.filter (· ≠ id), generation := r.generation + 1 })

/-- Takes ended sessions off the list and answers how many there were. -/
def reap (r : Registry) : Nat × Registry :=
  let live := r.listed.filter fun id => !(r.any? id).any (·.isTerminal)
  let reaped := r.listed.length - live.length
  if reaped = 0 then (0, r)
  else (reaped, { r with listed := live, generation := r.generation + 1 })

/-- Hands a ring over to a peer. -/
def claim (r : Registry) (handle : Nat) : Except StreamError RingGeometry × Registry :=
  let (a, handles) := r.handles.claim handle
  (a, { r with handles := handles })

/-- Takes the events sent so far. -/
def takeEvents (r : Registry) : List SessionEvent × Registry :=
  (r.events, { r with events := [] })

/-- Maps the ring file at `path`: the number of its session and the mapping. -/
def openRing (r : Registry) (path : String) : Except StreamError (Nat × RingMapping) :=
  match r.files.get? path with
  | none => .error (hostFailure path)
  | some id =>
    match r.any? id with
    | none => .error (hostFailure path)
    | some s => (RingMapping.ofFile path s.ring.memory).map fun m => (id, m)

/-- Applies an operation through a peer's mapping of the ring of session `id`. -/
def applyPeer (r : Registry) (id : Nat) (peer : RingMapping)
    (op : RingMapping → Memory → Except StreamError α × Memory) :
    Except StreamError α × Registry :=
  r.apply id fun s =>
    let (a, m) := op peer s.ring.memory
    (a, { s with ring := { s.ring with memory := m } })

end Registry
end Patchbay
