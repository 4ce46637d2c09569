import Patchbay.Wire.Notification
import Patchbay.Wire.Response

/-!
# Frames

A stream of bytes carries frames: the length of a message in four bytes, then the message. Frames
from the server begin with a word that tells replies from notifications.
-/
namespace Patchbay.Wire

/-- The longest message of a frame. -/
def maxFrame : Nat := 1048576

/-- A message as a frame. -/
def frame (message : List UInt8) : Except WireError (List UInt8) :=
  if message.length > maxFrame then .error (.malformed s!"frame of {message.length} bytes")
  else .ok (write32 (UInt32.ofNat message.length) ++ message)

/-- The next message of a stream that ends after `bs`, and the rest of the stream. There is none
if the stream ends where a frame would begin, or within the length of one. -/
def nextFrame (bs : List UInt8) : Except WireError (Option (List UInt8)) × List UInt8 :=
  let head := bs.take 4
  if head.length < 4 then (.ok none, [])
  else
    let n := LittleEndian.value head
    let rest := bs.drop 4
    if n > maxFrame then (.error (.malformed s!"frame of {n} bytes"), rest)
    else
      let message := rest.take n
      if message.length < n then (.error .peerClosed, [])
      else (.ok (some message), rest.drop n)

theorem nextFrame_shorter {bs message rest : List UInt8}
    (h : nextFrame bs = (.ok (some message), rest)) : rest.length < bs.length := by
  unfold nextFrame at h
  dsimp only at h
  split at h
  · simp at h
  · split at h
    · simp at h
    · split at h
      · simp at h
      · rename_i hlen _ _
        simp only [List.length_take, Nat.not_lt] at hlen
        have hr : ((bs.drop 4).drop (LittleEndian.value (bs.take 4))) = rest := by
          simpa using congrArg Prod.snd h
        rw [← hr]
        simp only [List.length_drop]
        omega

/-- All messages of a stream that ends after `bs`, and the error it ends with, if any. -/
def frames (bs : List UInt8) : List (List UInt8) × Option WireError :=
  match _h : nextFrame bs with
  | (.ok none, _) => ([], none)
  | (.error e, _) => ([], some e)
  | (.ok (some message), rest) =>
    let (more, e) := frames rest
    (message :: more, e)
termination_by bs.length
decreasing_by exact nextFrame_shorter _h

/-- The message of a reply as the client gets it. -/
def replyMessage (response : List UInt8) : List UInt8 :=
  write32 0 ++ response

/-- The response in a message from the server, if it is a reply. -/
def reply? (message : List UInt8) : Option (List UInt8) :=
  if message.take 4 = write32 0 then some (message.drop 4) else none

/-- A notification as the client gets it. -/
def Notification.encode (n : Notification) : List UInt8 :=
  write32 1 ++ n.payload

/-- A message from the server. -/
inductive ServerMessage where
  /-- The reply to the last request, not yet read. -/
  | reply (response : List UInt8)
  | notification (n : Notification)
deriving DecidableEq, Repr

/-- Reads a message from the server. -/
def ServerMessage.decode (message : List UInt8) : Except WireError ServerMessage :=
  match read32.run.run message with
  | (.error e, _) => .error e
  | (.ok kind, rest) =>
    if kind = 0 then .ok (.reply rest)
    else if kind = 1 then (Wire.decode Notification.read rest).map .notification
    else .error (.malformed s!"unknown frame kind {kind}")

end Patchbay.Wire
