import Patchbay.Wire.Frame

/-!
# Clients

A client sends requests over a stream and reads replies and notifications from it. Notifications
that arrive while it waits for a reply are kept for later.
-/
namespace Patchbay.Wire

structure Client where
  token : String
  /-- What the server has sent and the client has not read. The stream ends after it. -/
  incoming : List UInt8 := []
  /-- What the client has written. -/
  outgoing : List UInt8 := []
  /-- Notifications that arrived before a reply. -/
  queue : List Notification := []
deriving DecidableEq, Repr

namespace Client

/-- Writes a request. One that is too long is not written. -/
def send (c : Client) (r : Request) : Except WireError Unit × Client :=
  match frame (r.encode c.token) with
  | .error e => (.error e, c)
  | .ok bs => (.ok (), { c with outgoing := c.outgoing ++ bs })

/-- Reads one message. The end of the stream is an error. -/
def nextMessage (c : Client) : Except WireError ServerMessage × Client :=
  match nextFrame c.incoming with
  | (.error e, rest) => (.error e, { c with incoming := rest })
  | (.ok none, rest) => (.error .peerClosed, { c with incoming := rest })
  | (.ok (some message), rest) => (ServerMessage.decode message, { c with incoming := rest })

theorem nextMessage_shorter {c c' : Client} {m : ServerMessage}
    (h : c.nextMessage = (.ok m, c')) : c'.incoming.length < c.incoming.length := by
  unfold nextMessage at h
  split at h
  · simp at h
  · simp at h
  · rename_i hf
    rw [← (Prod.mk.inj h).2]
    exact nextFrame_shorter hf

/-- Reads on to the next reply and keeps the notifications before it. -/
def nextReply (c : Client) : Except WireError (List UInt8) × Client :=
  match _h : c.nextMessage with
  | (.error e, c') => (.error e, c')
  | (.ok (.reply response), c') => (.ok response, c')
  | (.ok (.notification n), c') => nextReply { c' with queue := c'.queue ++ [n] }
termination_by c.incoming.length
decreasing_by exact nextMessage_shorter _h

/-- Waits for the response to a request of this kind. -/
def receive (c : Client) (kind : RequestKind) : Except WireError Response × Client :=
  match c.nextReply with
  | (.error e, c) => (.error e, c)
  | (.ok response, c) => (decode (Response.readFor kind) response, c)

/-- The next notification, those kept from before first. -/
def nextNotification (c : Client) : Except WireError Notification × Client :=
  match c.queue with
  | n :: rest => (.ok n, { c with queue := rest })
  | [] =>
    match c.nextMessage with
    | (.error e, c) => (.error e, c)
    | (.ok (.notification n), c) => (.ok n, c)
    | (.ok (.reply _), c) => (.error (.malformed "reply without a request"), c)

/-- A notification kept from before, if there is one. -/
def queued? (c : Client) : Option Notification × Client :=
  match c.queue with
  | n :: rest => (some n, { c with queue := rest })
  | [] => (none, c)

/-- The notifications that have arrived, up to the first message that is none. -/
def arrived (c : Client) : List Notification × Client :=
  match _h : c.nextMessage with
  | (.ok (.notification n), c') =>
    let (rest, c'') := arrived c'
    (n :: rest, c'')
  | _ => ([], c)
termination_by c.incoming.length
decreasing_by exact nextMessage_shorter _h

/-- Takes all notifications that are there, those kept from before first. -/
def takeNotifications (c : Client) : List Notification × Client :=
  let (notes, c') := { c with queue := [] }.arrived
  (c.queue ++ notes, c')

/-- A whole call against a server whose answers have all arrived. -/
def call (c : Client) (r : Request) : Except WireError Response × Client :=
  match c.send r with
  | (.error e, c) => (.error e, c)
  | (.ok (), c) => c.receive r.kind

end Client
end Patchbay.Wire
