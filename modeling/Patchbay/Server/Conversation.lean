import Patchbay.Server.Requests
import Patchbay.Wire.Frame

/-!
# Conversations

The server's end of one connection, as a machine that takes one step at a time. Requests are read
frame by frame and answered in order. Replies and notifications share the way back: a reply that
waits goes first, and a frame once begun is written to its end, as many bytes at a time as the
stream will take. When the client has ended its side the replies that still wait are written, and
then the connection is over.
-/
namespace Patchbay

inductive Phase where
  | serving
  /-- The client sends no more; a frame that was being written is given up. -/
  | closing
  | over (result : Except WireError Unit)
deriving Repr

structure Conversation where
  conn : Nat
  /-- Where its notifications are. -/
  line : Nat
  /-- Bytes from the client that were not read yet. -/
  incoming : List UInt8 := []
  /-- The client sends no more. -/
  isEnded : Bool := false
  /-- Replies that wait to be written. -/
  replies : List (List UInt8) := []
  /-- The rest of the frame that is being written. -/
  pending : List UInt8 := []
  /-- All bytes the stream has taken. -/
  sent : List UInt8 := []
  phase : Phase := .serving
deriving Repr

namespace Conversation

def isOver (c : Conversation) : Bool :=
  match c.phase with
  | .over _ => true
  | _ => false

/-- Bytes arrive from the client. -/
def receive (c : Conversation) (bs : List UInt8) : Conversation :=
  { c with incoming := c.incoming ++ bs }

/-- The client ends its side. -/
def finish (c : Conversation) : Conversation :=
  { c with isEnded := true }

/-- Whether the length of the next frame and all of its bytes have arrived, or its length is
already too much. -/
def hasFrame (c : Conversation) : Bool :=
  let n := LittleEndian.value (c.incoming.take 4)
  4 ≤ c.incoming.length && (n > Wire.maxFrame || 4 + n ≤ c.incoming.length)

/-- The connection is over. -/
def close (s : Server) (c : Conversation) (result : Except WireError Unit) :
    Server × Conversation :=
  (s.disconnect c.conn |>.closeLine c.line, { c with phase := .over result })

/-- Reads the next frame and answers it. Nothing happens if it has not arrived yet. -/
def readStep (s : Server) (c : Conversation) : Server × Conversation :=
  match c.phase with
  | .serving =>
    if !c.isEnded && !c.hasFrame then (s, c)
    else
      match Wire.nextFrame c.incoming with
      | (.error e, rest) => close s { c with incoming := rest } (.error e)
      | (.ok none, rest) => (s, { c with incoming := rest, pending := [], phase := .closing })
      | (.ok (some message), rest) =>
        let (reply, s) := s.dispatch c.conn message
        (s, { c with incoming := rest, replies := c.replies ++ [Wire.replyMessage reply] })
  | _ => (s, c)

/-- Begins to write a frame. One that is too long ends the connection. -/
def begin (s : Server) (c : Conversation) (message : List UInt8) : Server × Conversation :=
  match Wire.frame message with
  | .ok bs => (s, { c with pending := bs })
  | .error e => close s c (.error e)

/-- Begins the next frame, or lets the stream take up to `n` bytes of the one begun. -/
def writeStep (n : Nat) (s : Server) (c : Conversation) : Server × Conversation :=
  if c.isOver then (s, c)
  else
    match c.pending, c.replies, c.phase with
    | b :: bs, _, _ =>
      (s, { c with sent := c.sent ++ (b :: bs).take n, pending := (b :: bs).drop n })
    | [], reply :: replies, _ => begin s { c with replies := replies } reply
    | [], [], .serving =>
      match s.lines[c.line]? with
      | some ⟨note :: rest, isOpen⟩ =>
        begin { s with lines := s.lines.set c.line ⟨rest, isOpen⟩ } c note.encode
      | _ => (s, c)
    | [], [], _ => close s c (.ok ())

/-- Whether a step of reading would do anything. -/
def canRead (c : Conversation) : Bool :=
  match c.phase with
  | .serving => c.isEnded || c.hasFrame
  | _ => false

/-- Whether a step of writing would do anything. -/
def canWrite (s : Server) (c : Conversation) : Bool :=
  match c.phase with
  | .serving =>
    !c.pending.isEmpty || !c.replies.isEmpty ||
      (s.lines[c.line]?).any fun box => !box.queue.isEmpty
  | .closing => true
  | .over _ => false

/-- Reads all that has arrived and then writes all that waits, in at most `fuel` steps. -/
def run : Nat → Server → Conversation → Server × Conversation
  | 0, s, c => (s, c)
  | fuel + 1, s, c =>
    if c.canRead then
      let (s, c) := readStep s c
      run fuel s c
    else if c.canWrite s then
      let (s, c) := writeStep (c.pending.length) s c
      run fuel s c
    else (s, c)

/-- More steps than `run` can take: two for each frame that can come of what waits, and for the
end. -/
def enough (s : Server) (c : Conversation) : Nat :=
  3 * c.incoming.length + 2 * c.replies.length +
    2 * ((s.lines[c.line]?).map (·.queue.length)).getD 0 + 8

/-- Reads and writes until nothing is left to do. -/
def settle (s : Server) (c : Conversation) : Server × Conversation :=
  run (enough s c) s c

/-- A new connection. -/
def start (s : Server) (conn : Nat) : Server × Conversation :=
  let (line, s) := s.connect conn
  (s, { conn := conn, line := line })

/-- Serves a client that sends all its bytes and then waits for the answers: the reply messages
it gets, or the error that the connection ends with. -/
def serve (s : Server) (conn : Nat) (bytes : List UInt8) :
    Except WireError (List (List UInt8)) × Server :=
  let (s, c) := start s conn
  let (s, c) := (c.receive bytes).finish.settle s
  match c.phase with
  | .over (.error e) => (.error e, s)
  | _ => (.ok ((Wire.frames c.sent).1.filterMap Wire.reply?), s)

end Conversation
end Patchbay
