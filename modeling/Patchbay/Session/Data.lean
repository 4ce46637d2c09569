import Patchbay.Ring.Destination
import Patchbay.Session.Basic

/-!
# The data of a session

Frames go through the ring of the session, and the session counts them. A frame that finds the
ring full counts as an overrun, a read that comes up short as an underrun.
-/
namespace Patchbay.Session

def bytesPerFrame (s : Session) : Nat := s.config.info.bytesPerFrame

/-- Queues one frame. -/
def write (s : Session) (frame : List UInt8) (timestamp : UInt64) :
    Except StreamError Unit × Session :=
  if s.isTerminal then (.error (s.illegal "write"), s)
  else
    match s.ring.apply fun r m => r.write m frame timestamp with
    | (.ok (), ring) =>
      let frames := s.position.framesWritten + frame.length / s.bytesPerFrame
      (.ok (), { s with ring := ring, position := { s.position with framesWritten := frames } })
    | (.error .bufferFull, ring) =>
      let overruns := s.position.overruns + 1
      (.error .bufferFull,
        { s with ring := ring, position := { s.position with overruns := overruns } })
    | (.error e, ring) => (.error e, { s with ring := ring })

/-- Fills a destination of `want` bytes. -/
def read (s : Session) (want : Nat) : Except StreamError FilledRead × Session :=
  if s.isTerminal then (.error (s.illegal "read"), s)
  else
    match s.ring.apply fun r m => r.readInto m want with
    | (.error e, ring) => (.error e, { s with ring := ring })
    | (.ok got, ring) =>
      let position := { s.position with
        framesRead := s.position.framesRead + got.bytesRead / s.bytesPerFrame
        underruns := s.position.underruns + if got.underrun then 1 else 0 }
      (.ok got, { s with
        ring := ring
        position := position
        lastTimestamp := got.timestamp.getD s.lastTimestamp })

/-- Fills a destination in place. -/
def readOnto (s : Session) (dest : List UInt8) :
    Except StreamError ReadOutcome × List UInt8 × Session :=
  if s.isTerminal then (.error (s.illegal "read"), dest, s)
  else
    match s.ring.mapping.readOnto s.ring.memory dest with
    | (.error e, dest, m) => (.error e, dest, { s with ring := { s.ring with memory := m } })
    | (.ok got, dest, m) =>
      let position := { s.position with
        framesRead := s.position.framesRead + got.bytesRead / s.bytesPerFrame
        underruns := s.position.underruns + if got.underrun then 1 else 0 }
      (.ok got, dest, { s with
        ring := { s.ring with memory := m }
        position := position
        lastTimestamp := got.timestamp.getD s.lastTimestamp })

def handleInfo (s : Session) : Except StreamError HandleInfo :=
  if s.isTerminal then .error (s.illegal "request_handle_info")
  else
    let (read, write) := RingMapping.cursors s.ring.memory
    .ok ⟨s.handle, read, write, s.position, s.lastTimestamp⟩

end Patchbay.Session
