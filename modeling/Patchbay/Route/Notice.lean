import Patchbay.Device.Descriptor
import Patchbay.Inbox
import Patchbay.Table

/-!
# Notices to the owners of sessions

The owner of a session subscribes to notices of where it is routed. A new subscription for the
same session takes the place of the old one, whose queue can still be read.
-/
namespace Patchbay

/-- What the owner of a session is told. -/
inductive SessionNotice where
  | deviceChanged (id : Nat) (previous current : Device)
  | teardown (id : Nat) (reason : String)
deriving DecidableEq, Repr

def SessionNotice.sessionId : SessionNotice → Nat
  | deviceChanged id _ _ | teardown id _ => id

/-- The subscriptions of sessions. -/
structure NoticeBoard where
  /-- For each session the number of the inbox its notices go to. -/
  readers : Table Nat Nat := ∅
  boxes : Inboxes SessionNotice := []
deriving Repr

namespace NoticeBoard

/-- A new subscription to the notices of a session, by the number of its inbox. -/
def subscribe (b : NoticeBoard) (id : Nat) : Nat × NoticeBoard :=
  let (i, boxes) := b.boxes.join
  (i, { readers := b.readers.put id i, boxes := boxes })

/-- Queues a notice; false if nobody listens. A reader that has gone is forgotten. -/
def notify (b : NoticeBoard) (id : Nat) (n : SessionNotice) : Bool × NoticeBoard :=
  match b.readers.get? id with
  | none => (false, b)
  | some i =>
    if b.boxes.isOpen i then (true, { b with boxes := b.boxes.sendTo i n })
    else (false, { b with readers := b.readers.erase id })

/-- Ends the subscription of a session; false if it had none. -/
def remove (b : NoticeBoard) (id : Nat) : Bool × NoticeBoard :=
  (b.readers.has id, { b with readers := b.readers.erase id })

/-- All notices waiting in an inbox. -/
def take (b : NoticeBoard) (i : Nat) : List SessionNotice × NoticeBoard :=
  let (notices, boxes) := b.boxes.take i
  (notices, { b with boxes := boxes })

/-- The reader of an inbox goes. -/
def close (b : NoticeBoard) (i : Nat) : NoticeBoard :=
  { b with boxes := b.boxes.close i }

def size (b : NoticeBoard) : Nat := b.readers.size

end NoticeBoard
end Patchbay
