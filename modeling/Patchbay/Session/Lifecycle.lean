import Patchbay.Session.Basic

/-!
# The life of a session

Every operation answers with its result and the session after it; an operation that a state does
not allow is refused. In a terminal state every operation is.
-/
namespace Patchbay.Session

/-- The buffer handle. The first call prepares the session. -/
def resolve (s : Session) : Except StreamError Handle × Session :=
  if s.isTerminal then (.error (s.illegal "resolve_buffer"), s)
  else if s.state = .new then (.ok s.handle, { s with state := .prepared })
  else (.ok s.handle, s)

/-- Starts to run, or waits for a device if there is none. -/
def start (s : Session) : Except StreamError Unit × Session :=
  match s.state with
  | .prepared | .stopped =>
    if s.device.isNone then (.ok (), { s with isPending := true, state := .prepared })
    else (.ok (), { s with isPending := false, state := .running })
  | _ => (.error (s.illegal "start"), s)

/-- Drops the unread data. The other side may hold the ring for ever; then the flush is refused
in the present state. -/
def flushRing (s : Session) : Except StreamError Unit × Session :=
  match s.ring.apply RingMapping.flush with
  | (.error (.illegalState _ _), ring) => (.error (s.illegal "flush"), { s with ring := ring })
  | (r, ring) => (r, { s with ring := ring })

/-- Pauses, and with `discard` drops the unread data; if that fails the session runs on. -/
def pause (s : Session) (discard : Bool) : Except StreamError Unit × Session :=
  match s.state with
  | .running =>
    let paused := { s with state := .paused }
    if discard then
      match paused.flushRing with
      | (.ok (), s) => (.ok (), s)
      | (.error e, s) => (.error e, { s with state := .running })
    else (.ok (), paused)
  | _ => (.error (s.illegal "pause"), s)

def resume (s : Session) : Except StreamError Unit × Session :=
  match s.state with
  | .paused =>
    if s.device.isNone then (.ok (), { s with isPending := true, state := .prepared })
    else (.ok (), { s with state := .running })
  | _ => (.error (s.illegal "resume"), s)

/-- Stops; a start that waits for a device counts as running. -/
def stop (s : Session) : Except StreamError Unit × Session :=
  let stopped := { s with isPending := false, state := .stopped }
  match s.state with
  | .running | .paused => (.ok (), stopped)
  | .prepared => if s.isPending then (.ok (), stopped) else (.error (s.illegal "stop"), s)
  | _ => (.error (s.illegal "stop"), s)

/-- Drops the unread data while nothing is being played. -/
def flush (s : Session) : Except StreamError Unit × Session :=
  match s.state with
  | .paused | .stopped => s.flushRing
  | _ => (.error (s.illegal "flush"), s)

/-- The file that a release of the ring would remove. -/
def ringFile? (s : Session) : Option String :=
  if s.ring.mapping.isClosed then none else s.ring.mapping.ownFile?

/-- Ends the session in a terminal state. -/
def close (s : Session) (state : SessionState) (event : SessionEvent) : Session × Closing :=
  ({ s with state := state, ring := s.ring.release },
    { handle := s.handle.id, file := s.ringFile?, event := if s.reports then some event else none })

/-- Ends the session at the wish of its owner. Only a session already released refuses. -/
def release (s : Session) : Except StreamError Unit × Session × Option Closing :=
  if s.state = .released then (.error (s.illegal "release"), s, none)
  else
    let (s', closing) := s.close .released (.released s.id)
    (.ok (), s', some closing)

/-- Ends the session after a fault; nothing happens if it has ended already. -/
def invalidate (s : Session) (reason : String) : Session × Option Closing :=
  if s.isTerminal then (s, none)
  else
    let (s', closing) := s.close .invalid (.invalidated s.id reason)
    (s', some closing)

/-- Binds a device and answers the one bound before. A running session that loses its device
waits for the next one; a session that waits runs once it gets one. -/
def bind (s : Session) (d : Device) : Except StreamError Device × Session :=
  if s.isTerminal then (.error (s.illegal "bind_device"), s)
  else
    let bound := { s with device := d, epoch := if s.device = d then s.epoch else s.epoch + 1 }
    let moved :=
      if d.isNone then
        if s.state = .running then { bound with isPending := true, state := .prepared } else bound
      else if s.isPending && s.state = .prepared then
        { bound with isPending := false, state := .running }
      else bound
    (.ok s.device, moved)

end Patchbay.Session
