import Patchbay.Session.Registry

/-!
# Route caches

The sessions of one role and format that may feed a device or be fed by it. The list is built
anew only when the set of listed sessions has changed, and whether a session is routed to the
device is looked up again only when the session has been bound to another device.
-/
namespace Patchbay

/-- A session that may be routed to the device. -/
structure CachedRoute where
  session : Nat
  /-- The epoch in which the route was looked up. -/
  epoch : Option Nat := none
  isRouted : Bool := false
deriving DecidableEq, Repr

structure RouteCache where
  device : Device
  role : DeviceRole
  info : StreamFormat
  /-- The generation of the registry that the list is of. -/
  generation : Option Nat := none
  entries : List CachedRoute := []
deriving DecidableEq, Repr

namespace RouteCache

/-- Whether a session has the role and the format. -/
def suits (c : RouteCache) (s : Session) : Bool :=
  s.intent.role = c.role && s.config.info = c.info

/-- Looks a route up again if the session was bound anew. -/
def relook (c : RouteCache) (reg : Registry) (e : CachedRoute) : CachedRoute :=
  match reg.any? e.session with
  | none => e
  | some s =>
    if e.epoch = some s.epoch then e
    else { e with epoch := some s.epoch, isRouted := s.device.sameEndpoint c.device }

/-- Brings the cache up to date; true if the list was built anew. -/
def refresh (c : RouteCache) (reg : Registry) : Bool × RouteCache :=
  let stale := c.generation ≠ some reg.generation
  let entries :=
    if stale then (reg.all.filter c.suits).map fun s => { session := s.id } else c.entries
  (stale, { c with
    generation := some reg.generation
    entries := entries.map (c.relook reg) })

/-- The running sessions routed to the device. -/
def running (c : RouteCache) (reg : Registry) : List Session :=
  ((c.entries.filter (·.isRouted)).filterMap fun e => reg.any? e.session).filter (·.isRunning)

end RouteCache
end Patchbay
