import Patchbay.Proofs.Server.Calls
import Patchbay.Proofs.Wire.Mailboxes

/-!
# Dialogues

A client sends requests, ends its side when it has sent the last, and reads on. In whatever order
bytes arrive, requests are read, frames are begun and written in parts, and notifications come up,
what the server writes are whole frames, and its replies answer the requests in their order. At
the end each request has one reply, unless a frame came up that is too long to be written.

Reading the end of the requests gives up a frame that is half written. The orders of steps in
which this happens are set apart: then the frame is never completed.
-/
namespace Patchbay
open Wire (ServerMessage TextFits framed replyMessage replies stream maxFrame)

/-- A request as it was dispatched: the message, and the server as it was then. -/
structure Inquiry where
  message : List UInt8
  server : Server

namespace Inquiry

/-- The reply that the server gave. -/
def reply (conn : Nat) (q : Inquiry) : List UInt8 :=
  (q.server.dispatch conn q.message).1

end Inquiry

/-- A conversation with its server and its client. -/
structure Dialogue where
  server : Server
  talk : Conversation
  /-- What the client sends and has not arrived yet. -/
  coming : List UInt8
  /-- The requests that were dispatched, in order. -/
  asked : List Inquiry := []

inductive DialogueStep where
  /-- Up to `n` bytes of the client arrive. -/
  | arrive (n : Nat)
  /-- The client ends its side, if all that it sends has arrived. -/
  | finish
  /-- The next frame, or the end of the requests, is read. -/
  | read
  /-- The next frame is begun, or the stream takes up to `n` bytes of the one begun. -/
  | write (n : Nat)
  /-- A notification is begun before the replies that wait: a reply waits from its dispatch on,
  and reaches the writer some time later. -/
  | interject
  /-- What happens elsewhere leaves the server in any state, with any notifications. -/
  | elsewhere (s : Server)

/-- A step that the server's end takes by itself. -/
def DialogueStep.IsOwn : DialogueStep → Prop
  | .read | .write _ => True
  | _ => False

namespace Conversation

/-- The request that a step of reading would dispatch. -/
def request? (c : Conversation) : Option (List UInt8) :=
  match c.phase with
  | .serving =>
    if !c.isEnded && !c.hasFrame then none
    else
      match Wire.nextFrame c.incoming with
      | (.ok message, _) => message
      | (.error _, _) => none
  | _ => none

/-- Begins to write a notification and keeps the replies waiting. -/
def interject (s : Server) (c : Conversation) : Server × Conversation :=
  match c.phase with
  | .serving =>
    let (s, c') := writeStep 0 s { c with replies := [] }
    (s, { c' with replies := c.replies })
  | _ => (s, c)

end Conversation

namespace Dialogue

/-- A new connection of a client that is going to send these requests. -/
def opening (s : Server) (conn : Nat) (ms : List (List UInt8)) : Dialogue :=
  let (s, c) := Conversation.start s conn
  { server := s, talk := c, coming := ms.flatMap framed }

/-- The server and the conversation after a step of theirs. -/
def put (d : Dialogue) (p : Server × Conversation) : Dialogue :=
  { d with server := p.1, talk := p.2 }

def step (d : Dialogue) : DialogueStep → Dialogue
  | .arrive n => { d with talk := d.talk.receive (d.coming.take n), coming := d.coming.drop n }
  | .finish => if d.coming = [] then { d with talk := d.talk.finish } else d
  | .read =>
    { d.put (d.talk.readStep d.server) with
      asked := d.asked ++ d.talk.request?.toList.map fun message => ⟨message, d.server⟩ }
  | .write n => d.put (d.talk.writeStep n d.server)
  | .interject => d.put (d.talk.interject d.server)
  | .elsewhere s => { d with server := s }

def run (d : Dialogue) (steps : List DialogueStep) : Dialogue :=
  steps.foldl step d

theorem run_append (d : Dialogue) (early late : List DialogueStep) :
    d.run (early ++ late) = (d.run early).run late :=
  List.foldl_append

/-- The step reads the end of the requests while a frame is half written. -/
def Tears (d : Dialogue) (t : DialogueStep) : Prop :=
  t = .read ∧ d.talk.phase = .serving ∧ d.talk.isEnded ∧ d.talk.incoming = [] ∧
    d.talk.pending ≠ []

theorem not_tears_of_ne {d : Dialogue} {t : DialogueStep} (h : t ≠ .read) : ¬ d.Tears t :=
  fun htears => h htears.1

/-- No step reads the end of the requests while a frame is half written. -/
def Unbroken (d : Dialogue) : List DialogueStep → Prop
  | [] => True
  | t :: steps => ¬ d.Tears t ∧ (d.step t).Unbroken steps

/-- The replies that were given, in the order of the requests. -/
def answers (conn : Nat) (d : Dialogue) : List (List UInt8) :=
  d.asked.map (·.reply conn)

end Dialogue

section Reading
variable {s : Server} {c : Conversation} {bs coming rest message : List UInt8}
  {ms : List (List UInt8)}

/-- A frame that has arrived is the first of those that are sent. -/
theorem Conversation.arrived_frame (hms : ∀ m ∈ ms, m.length ≤ maxFrame)
    (hbytes : c.incoming ++ coming = ms.flatMap framed) (h : c.hasFrame) :
    ∃ message ms' rest, ms = message :: ms' ∧ c.incoming = framed message ++ rest ∧
      rest ++ coming = ms'.flatMap framed := by
  simp only [Conversation.hasFrame, Bool.and_eq_true, Bool.or_eq_true, decide_eq_true_eq] at h
  exact Wire.front_of_frames hms hbytes h.1 fun hshort => h.2.resolve_left (Nat.not_lt.mpr hshort)

theorem Conversation.readStep_of_request (hserving : c.phase = .serving)
    (hmessage : message.length ≤ maxFrame) (hincoming : c.incoming = framed message ++ rest)
    (hready : c.isEnded ∨ c.hasFrame) : c.request? = some message ∧
      c.readStep s = ((s.dispatch c.conn message).2, { c with
        incoming := rest
        replies := c.replies ++ [replyMessage (s.dispatch c.conn message).1] }) := by
  have hgo : (!c.isEnded && !c.hasFrame) = false := by
    rcases hready with h | h <;> simp [h]
  have hnext : Wire.nextFrame (framed message ++ rest) = (.ok (some message), rest) :=
    Wire.nextFrame_framed hmessage
  simp [Conversation.request?, Conversation.readStep, hserving, hgo, hincoming, hnext]

theorem Conversation.readStep_of_end (hserving : c.phase = .serving) (hended : c.isEnded)
    (hincoming : c.incoming = []) : c.request? = none ∧
      c.readStep s = (s, { c with pending := [], phase := .closing }) := by
  have hnext : Wire.nextFrame [] = (.ok none, []) := rfl
  simp [Conversation.request?, Conversation.readStep, hserving, hended, hincoming, hnext]

theorem Conversation.readStep_of_idle (h : c.phase ≠ .serving ∨ ¬ c.isEnded ∧ ¬ c.hasFrame) :
    c.request? = none ∧ c.readStep s = (s, c) := by
  unfold Conversation.request? Conversation.readStep
  rcases h with h | ⟨hended, hframe⟩
  · cases hphase : c.phase with
    | serving => exact absurd hphase h
    | closing | _ => exact ⟨rfl, rfl⟩
  · cases hphase : c.phase <;> simp [hended, hframe]

end Reading

namespace Conversation
variable {s s' : Server} {c c' : Conversation} {message : List UInt8}

theorem phase_ne_over {result : Except WireError Unit} (h : c.isOver = false) :
    c.phase ≠ .over result := by
  intro hover
  rw [isOver, hover] at h
  cases h

/-- A frame is begun, or the connection ends because the frame would be too long. -/
inductive Begins (s : Server) (c : Conversation) (message : List UInt8) :
    Server → Conversation → Prop
  | fits (hlen : message.length ≤ maxFrame) :
      Begins s c message s { c with pending := framed message }
  | refused (hlen : maxFrame < message.length) :
      Begins s c message ((s.disconnect c.conn).closeLine c.line)
        { c with phase := .over (.error (.malformed s!"frame of {message.length} bytes")) }

theorem begins_begin (s : Server) (c : Conversation) (message : List UInt8) :
    Begins s c message (begin s c message).1 (begin s c message).2 := by
  by_cases h : message.length ≤ maxFrame
  · rw [begin_eq h]
    exact .fits h
  · have hlong : maxFrame < message.length := Nat.lt_of_not_le h
    have hbegin : begin s c message =
        close s c (.error (.malformed s!"frame of {message.length} bytes")) := by
      unfold begin Wire.frame
      rw [if_pos hlong]
    rw [hbegin]
    exact .refused hlong

/-- What one step of writing does. -/
inductive Writes (s : Server) (c : Conversation) : Server → Conversation → Prop
  | still : Writes s c s c
  | part (n : Nat) (hopen : c.isOver = false) :
      Writes s c s { c with sent := c.sent ++ c.pending.take n, pending := c.pending.drop n }
  | reply {rest : List (List UInt8)} {message : List UInt8} {s' : Server} {c' : Conversation}
      (hopen : c.isOver = false) (hpending : c.pending = [])
      (hreplies : c.replies = message :: rest)
      (hbegins : Begins s { c with replies := rest } message s' c') : Writes s c s' c'
  | note {n : Wire.Notification} {rest : List Wire.Notification} {isOpen : Bool} {s' : Server}
      {c' : Conversation} (hserving : c.phase = .serving) (hpending : c.pending = [])
      (hline : s.lines[c.line]? = some ⟨n :: rest, isOpen⟩)
      (hbegins : Begins { s with lines := s.lines.set c.line ⟨rest, isOpen⟩ } c n.encode s' c') :
      Writes s c s' c'
  | done (s' : Server) (hclosing : c.phase = .closing) (hpending : c.pending = [])
      (hreplies : c.replies = []) : Writes s c s' { c with phase := .over (.ok ()) }

theorem writes_writeStep (n : Nat) (s : Server) (c : Conversation) :
    Writes s c (writeStep n s c).1 (writeStep n s c).2 := by
  unfold writeStep
  split
  · exact .still
  · rename_i hover
    have hopen : c.isOver = false := Bool.eq_false_iff.mpr hover
    split
    · rename_i hpending
      rw [← hpending]
      exact .part n hopen
    · rename_i hpending hreplies
      exact .reply hopen hpending hreplies (begins_begin _ _ _)
    · rename_i hpending hreplies hserving
      split
      · rename_i hline
        exact .note hserving hpending hline (begins_begin _ _ _)
      · exact .still
    · rename_i hpending hreplies hserving
      have hclosing : c.phase = .closing := by
        cases hphase : c.phase with
        | serving => exact absurd hphase hserving
        | closing => rfl
        | _ => exact absurd hphase (phase_ne_over hopen)
      exact .done _ hclosing hpending hreplies

theorem writes_interject (s : Server) (c : Conversation) :
    Writes s c (interject s c).1 (interject s c).2 := by
  unfold interject
  split
  · rename_i hserving
    have hwrites := writes_writeStep 0 s { c with replies := [] }
    generalize writeStep 0 s { c with replies := [] } = p at hwrites
    obtain ⟨s', c'⟩ := p
    cases hwrites with
    | still => exact .still
    | part n hopen => exact .part n (by simp [isOver, hserving])
    | reply hopen hpending hreplies hbegins => cases hreplies
    | note hnote hpending hline hbegins =>
        refine .note hserving hpending hline ?_
        cases hbegins with
        | fits hlen => exact .fits hlen
        | refused hlen => exact .refused hlen
    | done s' hclosing hpending hreplies => rw [hserving] at hclosing; cases hclosing
  · exact .still

end Conversation

namespace Dialogue
variable {d : Dialogue} {conn : Nat} {ms left : List (List UInt8)} {written : List ServerMessage}
  {begun : Option ServerMessage} {waiting : List (List UInt8)} {s' : Server} {c' : Conversation}

/-- The message is too long for a frame, and `result` says so. -/
def Spoils (m : ServerMessage) (result : Except WireError Unit) : Prop :=
  maxFrame < m.encode.length ∧
    result = .error (.malformed s!"frame of {m.encode.length} bytes")

/-- Of the requests `ms` those but for `left` have been dispatched. The stream has taken the
frames of `written`, and the part of that of `begun` which is not pending. The replies `waiting`
are still to be written. -/
structure Sound (conn : Nat) (ms : List (List UInt8)) (d : Dialogue)
    (written : List ServerMessage) (begun : Option ServerMessage)
    (waiting left : List (List UInt8)) : Prop where
  connection : d.talk.conn = conn
  asked : ms = d.asked.map (·.message) ++ left
  bytes : d.talk.incoming ++ d.coming = left.flatMap framed
  ended : d.talk.isEnded → d.coming = []
  backlog : d.talk.replies = waiting.map replyMessage
  sent : ∃ part, d.talk.sent = stream written ++ part ∧
    part ++ d.talk.pending = stream begun.toList
  answered : d.talk.isOver = false →
    replies (written ++ begun.toList) ++ waiting = d.answers conn
  closing : d.talk.phase = .closing → left = []
  finished : ∀ result, d.talk.phase = .over result → d.talk.pending = [] ∧
    (result = .ok () ∧ left = [] ∧ replies (written ++ begun.toList) = d.answers conn ∨
      ∃ m, Spoils m result ∧
        replies (written ++ begun.toList) ++ m.response?.toList <+: d.answers conn)
  short : ∀ m ∈ written ++ begun.toList, m.encode.length ≤ maxFrame

theorem Sound.answers_first (h : d.Sound conn ms written begun waiting left) :
    replies (written ++ begun.toList) <+: d.answers conn := by
  cases hphase : d.talk.phase with
  | serving => exact ⟨_, h.answered (by simp [Conversation.isOver, hphase])⟩
  | closing => exact ⟨_, h.answered (by simp [Conversation.isOver, hphase])⟩
  | _ =>
      rcases (h.finished _ hphase).2 with ⟨-, -, hall⟩ | ⟨m, -, hsome⟩
      · exact hall ▸ List.prefix_refl _
      · exact (List.prefix_append _ _).trans hsome

/-- A frame is begun, of a reply that waits or of a notification. -/
theorem Sound.begins (h : d.Sound conn ms written begun waiting left) {m : ServerMessage}
    {rest : List (List UInt8)} (hopen : d.talk.isOver = false) (hpending : d.talk.pending = [])
    (hwaiting : waiting = m.response?.toList ++ rest) {s : Server}
    (hbegins : Conversation.Begins s { d.talk with replies := rest.map replyMessage } m.encode
      s' c') :
    ∃ written begun, (d.put (s', c')).Sound conn ms written begun rest left := by
  obtain ⟨part, hsent, hpart⟩ := h.sent
  have hanswered := h.answered hopen
  rw [hpending, List.append_nil] at hpart
  rw [hwaiting, ← List.append_assoc] at hanswered
  cases hbegins with
  | fits hlen =>
      have hbegun : replies (written ++ begun.toList ++ [m]) ++ rest = d.answers conn := by
        rw [Wire.replies_append, ← hanswered]
        cases m <;> rfl
      exact ⟨written ++ begun.toList, some m, h.connection, h.asked, h.bytes, h.ended, rfl,
        ⟨[], by simp [put, hsent, hpart], by simp [put]⟩, fun _ => hbegun, h.closing,
        fun result hover => absurd hover (Conversation.phase_ne_over hopen),
        List.forall_mem_append.mpr ⟨h.short, List.forall_mem_singleton.mpr hlen⟩⟩
  | refused hlen =>
      refine ⟨written, begun, h.connection, h.asked, h.bytes, h.ended, rfl,
        ⟨part, hsent, by simp [put, hpending, hpart]⟩, fun hopen => (by cases hopen),
        fun hclosing => (by cases hclosing),
        fun result hover => ⟨hpending, .inr ⟨m, ?_, rest, hanswered⟩⟩, h.short⟩
      cases hover
      exact ⟨hlen, rfl⟩

theorem Sound.writes (h : d.Sound conn ms written begun waiting left)
    (hwrites : Conversation.Writes d.server d.talk s' c') :
    ∃ written begun waiting, (d.put (s', c')).Sound conn ms written begun waiting left := by
  obtain ⟨part, hsent, hpart⟩ := h.sent
  have hkeep : { d.talk with replies := waiting.map replyMessage } = d.talk := by
    rw [← h.backlog]
  cases hwrites with
  | still => exact ⟨written, begun, waiting, h⟩
  | part n hopen =>
      refine ⟨written, begun, waiting, h.connection, h.asked, h.bytes, h.ended, h.backlog,
        ⟨part ++ d.talk.pending.take n, by simp [put, hsent], by simp [put, hpart]⟩, h.answered,
        h.closing, fun result hover => absurd hover (Conversation.phase_ne_over hopen), h.short⟩
  | reply hopen hpending hreplies hbegins =>
      rw [h.backlog] at hreplies
      obtain ⟨response, rest, rfl, rfl, rfl⟩ := List.map_eq_cons_iff.mp hreplies
      obtain ⟨written, begun, h'⟩ := h.begins (m := .reply response) hopen hpending rfl hbegins
      exact ⟨written, begun, rest, h'⟩
  | @note n _ _ _ _ hserving hpending hline hbegins =>
      have hopen : d.talk.isOver = false := by simp [Conversation.isOver, hserving]
      rw [← hkeep] at hbegins
      obtain ⟨written, begun, h'⟩ := h.begins (m := .notification n) hopen hpending rfl hbegins
      exact ⟨written, begun, waiting, h'⟩
  | done s' hclosing hpending hreplies =>
      have hopen : d.talk.isOver = false := by simp [Conversation.isOver, hclosing]
      have hnone : waiting = [] := List.map_eq_nil_iff.mp (h.backlog ▸ hreplies)
      have hanswered := h.answered hopen
      rw [hnone, List.append_nil] at hanswered
      refine ⟨written, begun, waiting, h.connection, h.asked, h.bytes, h.ended, h.backlog, h.sent,
        fun hopen => (by cases hopen), fun hclosing => (by cases hclosing),
        fun result hover => ⟨hpending, .inl ⟨?_, h.closing hclosing, hanswered⟩⟩, h.short⟩
      cases hover
      rfl

theorem step_read_of_request {message bs : List UInt8} (hserving : d.talk.phase = .serving)
    (hmessage : message.length ≤ maxFrame) (hincoming : d.talk.incoming = framed message ++ bs)
    (hready : d.talk.isEnded ∨ d.talk.hasFrame) :
    d.step .read = { d with
      server := (d.server.dispatch d.talk.conn message).2
      talk := { d.talk with
        incoming := bs
        replies := d.talk.replies ++ [replyMessage (d.server.dispatch d.talk.conn message).1] }
      asked := d.asked ++ [⟨message, d.server⟩] } := by
  obtain ⟨hrequest, hread⟩ := Conversation.readStep_of_request (s := d.server) hserving hmessage
    hincoming hready
  simp [step, put, hrequest, hread]

theorem step_read_of_end (hserving : d.talk.phase = .serving) (hended : d.talk.isEnded)
    (hincoming : d.talk.incoming = []) :
    d.step .read = { d with talk := { d.talk with pending := [], phase := .closing } } := by
  obtain ⟨hrequest, hread⟩ :=
    Conversation.readStep_of_end (s := d.server) hserving hended hincoming
  simp [step, put, hrequest, hread]

theorem step_write_of_reply {reply : List UInt8} {rest : List (List UInt8)} (n : Nat)
    (hopen : d.talk.isOver = false) (hpending : d.talk.pending = [])
    (hreplies : d.talk.replies = reply :: rest) :
    d.step (.write n) =
      d.put (Conversation.begin d.server { d.talk with replies := rest } reply) := by
  simp [step, Conversation.writeStep, hopen, hpending, hreplies]

theorem step_write_of_note {note : Wire.Notification} {rest : List Wire.Notification}
    {isOpen : Bool} (n : Nat) (hserving : d.talk.phase = .serving) (hpending : d.talk.pending = [])
    (hreplies : d.talk.replies = [])
    (hline : d.server.lines[d.talk.line]? = some ⟨note :: rest, isOpen⟩) :
    d.step (.write n) = d.put (Conversation.begin
      { d.server with lines := d.server.lines.set d.talk.line ⟨rest, isOpen⟩ } d.talk
      note.encode) := by
  simp [step, Conversation.writeStep, Conversation.isOver, hserving, hpending, hreplies, hline]

theorem step_write_of_pending (hopen : d.talk.isOver = false) (hpending : d.talk.pending ≠ []) :
    d.step (.write d.talk.pending.length) = { d with talk := { d.talk with
      sent := d.talk.sent ++ d.talk.pending
      pending := [] } } := by
  obtain ⟨b, bs, hbs⟩ := List.exists_cons_of_ne_nil hpending
  simp [step, put, Conversation.writeStep, hopen, hbs]

/-- Reading dispatches the next request, or takes the end of the requests. -/
theorem Sound.read (hms : ∀ m ∈ ms, m.length ≤ maxFrame)
    (h : d.Sound conn ms written begun waiting left) (htears : ¬ d.Tears .read) :
    ∃ waiting left, (d.step .read).Sound conn ms written begun waiting left := by
  have hleft : ∀ m ∈ left, m.length ≤ maxFrame := fun m hm =>
    hms m (h.asked ▸ List.mem_append_right _ hm)
  have hidle (hidle : d.talk.phase ≠ .serving ∨ ¬ d.talk.isEnded ∧ ¬ d.talk.hasFrame) :
      ∃ waiting left, (d.step .read).Sound conn ms written begun waiting left := by
    obtain ⟨hrequest, hread⟩ := Conversation.readStep_of_idle (s := d.server) hidle
    refine ⟨waiting, left, ?_⟩
    simpa [step, put, hrequest, hread] using h
  have hrequest (hserving : d.talk.phase = .serving) {message : List UInt8}
      {rest : List (List UInt8)} {bs : List UInt8} (hcons : left = message :: rest)
      (hincoming : d.talk.incoming = framed message ++ bs)
      (hbytes : bs ++ d.coming = rest.flatMap framed)
      (hready : d.talk.isEnded ∨ d.talk.hasFrame) :
      ∃ waiting left, (d.step .read).Sound conn ms written begun waiting left := by
    subst hcons
    have hopen : d.talk.isOver = false := by simp [Conversation.isOver, hserving]
    rw [step_read_of_request hserving (hleft message List.mem_cons_self) hincoming hready,
      h.connection]
    refine ⟨waiting ++ [(d.server.dispatch conn message).1], rest, h.connection, ?_, hbytes,
      h.ended, ?_, h.sent, fun _ => ?_, fun hclosing => ?_, fun result hover => ?_, h.short⟩
    · simp [h.asked]
    · simp [h.backlog]
    · rw [← List.append_assoc, h.answered hopen]
      simp [answers, Inquiry.reply]
    · cases hserving.symm.trans hclosing
    · cases hserving.symm.trans hover
  by_cases hserving : d.talk.phase = .serving
  · by_cases hended : d.talk.isEnded
    · have hcoming := h.ended hended
      have hbytes := h.bytes
      rw [hcoming, List.append_nil] at hbytes
      cases left with
      | nil =>
          have hpending : d.talk.pending = [] := by
            by_contra hpending
            exact htears ⟨rfl, hserving, hended, hbytes, hpending⟩
          have hopen : d.talk.isOver = false := by simp [Conversation.isOver, hserving]
          have hsent := h.sent
          rw [hpending] at hsent
          rw [step_read_of_end hserving hended hbytes]
          exact ⟨waiting, [], h.connection, h.asked, h.bytes, h.ended, h.backlog, hsent,
            fun _ => h.answered hopen, fun _ => rfl, fun result hover => (by cases hover),
            h.short⟩
      | cons message rest =>
          rw [List.flatMap_cons] at hbytes
          exact hrequest hserving rfl hbytes (by rw [hcoming, List.append_nil]) (.inl hended)
    · by_cases hframe : d.talk.hasFrame
      · obtain ⟨message, rest, bs, hcons, hincoming, hbytes⟩ :=
          Conversation.arrived_frame hleft h.bytes hframe
        exact hrequest hserving hcons hincoming hbytes (.inr hframe)
      · exact hidle (.inr ⟨hended, hframe⟩)
  · exact hidle (.inl hserving)

theorem Sound.arrive (h : d.Sound conn ms written begun waiting left) (n : Nat) :
    (d.step (.arrive n)).Sound conn ms written begun waiting left where
  connection := h.connection
  asked := h.asked
  bytes := by
    rw [← h.bytes]
    simp [step, Conversation.receive]
  ended hended := by
    have hcoming : d.coming = [] := h.ended hended
    simp [step, hcoming]
  backlog := h.backlog
  sent := h.sent
  answered := h.answered
  closing := h.closing
  finished := h.finished
  short := h.short

theorem Sound.finish (h : d.Sound conn ms written begun waiting left) :
    (d.step .finish).Sound conn ms written begun waiting left := by
  unfold step
  dsimp only
  split
  · exact ⟨h.connection, h.asked, h.bytes, fun _ => ‹_›, h.backlog, h.sent, h.answered, h.closing,
      h.finished, h.short⟩
  · exact h

theorem Sound.step (hms : ∀ m ∈ ms, m.length ≤ maxFrame)
    (h : d.Sound conn ms written begun waiting left) {t : DialogueStep} (ht : ¬ d.Tears t) :
    ∃ written begun waiting left, (d.step t).Sound conn ms written begun waiting left := by
  cases t with
  | arrive n => exact ⟨written, begun, waiting, left, h.arrive n⟩
  | finish => exact ⟨written, begun, waiting, left, h.finish⟩
  | read =>
      obtain ⟨waiting, left, h⟩ := h.read hms ht
      exact ⟨written, begun, waiting, left, h⟩
  | write n =>
      obtain ⟨written, begun, waiting, h⟩ := h.writes (Conversation.writes_writeStep n _ _)
      exact ⟨written, begun, waiting, left, h⟩
  | interject =>
      obtain ⟨written, begun, waiting, h⟩ := h.writes (Conversation.writes_interject _ _)
      exact ⟨written, begun, waiting, left, h⟩
  | elsewhere s =>
      exact ⟨written, begun, waiting, left, h.connection, h.asked, h.bytes, h.ended, h.backlog,
        h.sent, h.answered, h.closing, h.finished, h.short⟩

theorem Sound.run (hms : ∀ m ∈ ms, m.length ≤ maxFrame)
    (h : d.Sound conn ms written begun waiting left) {steps : List DialogueStep}
    (hsteps : d.Unbroken steps) :
    ∃ written begun waiting left, (d.run steps).Sound conn ms written begun waiting left := by
  induction steps generalizing d written begun waiting left with
  | nil => exact ⟨written, begun, waiting, left, h⟩
  | cons t steps ih =>
      obtain ⟨written, begun, waiting, left, h⟩ := h.step hms hsteps.1
      exact ih h hsteps.2

theorem sound_of_sent (s : Server) (conn line : Nat) (ms : List (List UInt8)) :
    Sound conn ms ⟨s, { conn := conn, line := line }, ms.flatMap framed, []⟩ [] none [] ms where
  connection := rfl
  asked := rfl
  bytes := rfl
  ended := nofun
  backlog := rfl
  sent := ⟨[], rfl, rfl⟩
  answered _ := rfl
  closing := nofun
  finished := nofun
  short := List.forall_mem_nil _

theorem sound_opening (s : Server) (conn : Nat) (ms : List (List UInt8)) :
    (opening s conn ms).Sound conn ms [] none [] ms :=
  sound_of_sent _ conn _ ms

/-- A bound for the steps to the end, once the client has ended its side. -/
def effort (d : Dialogue) : Nat :=
  match d.talk.phase with
  | .over _ => 0
  | .closing => 2 * d.talk.replies.length + min 1 d.talk.pending.length + 1
  | .serving => 3 * d.talk.incoming.length + 2 * d.talk.replies.length +
      min 1 d.talk.pending.length + 2

/-- When the client has ended its side, there is a step that brings the end nearer. -/
theorem Sound.exists_step (hms : ∀ m ∈ ms, m.length ≤ maxFrame)
    (h : d.Sound conn ms written begun waiting left) (hended : d.talk.isEnded)
    (hopen : d.talk.isOver = false) :
    ∃ t : DialogueStep, t.IsOwn ∧ ¬ d.Tears t ∧ (d.step t).talk.isEnded ∧
      (d.step t).effort < d.effort := by
  by_cases hpending : d.talk.pending = []
  · cases hphase : d.talk.phase with
    | closing =>
        cases hreplies : d.talk.replies with
        | nil =>
            refine ⟨.write 0, trivial, not_tears_of_ne DialogueStep.noConfusion, ?_⟩
            simp [Dialogue.step, put, Conversation.writeStep, hopen, hpending, hreplies, hphase,
              Conversation.close, effort, hended]
        | cons reply rest =>
            refine ⟨.write 0, trivial, not_tears_of_ne DialogueStep.noConfusion, ?_⟩
            rw [step_write_of_reply 0 hopen hpending hreplies]
            have hbegins := Conversation.begins_begin d.server { d.talk with replies := rest } reply
            generalize Conversation.begin d.server { d.talk with replies := rest } reply = p at *
            obtain ⟨s', c'⟩ := p
            cases hbegins <;> simp [put, effort, hphase, hended, hreplies]
            omega
    | serving =>
        have hbytes := h.bytes
        rw [h.ended hended, List.append_nil] at hbytes
        refine ⟨.read, trivial, fun htears => htears.2.2.2.2 hpending, ?_⟩
        cases hleft : left with
        | nil =>
            rw [hleft] at hbytes
            rw [step_read_of_end hphase hended hbytes]
            simp [effort, hphase, hended, hbytes, hpending]
        | cons message rest =>
            rw [hleft, List.flatMap_cons] at hbytes
            have hmessage := hms message (by simp [h.asked, hleft])
            have hlength : 4 ≤ (framed message).length := by
              rw [framed, List.length_append, Wire.length_write32]
              omega
            rw [step_read_of_request hphase hmessage hbytes (.inl hended)]
            simp [effort, hphase, hended, hbytes]
            omega
    | _ => exact absurd hphase (Conversation.phase_ne_over hopen)
  · refine ⟨.write d.talk.pending.length, trivial, not_tears_of_ne DialogueStep.noConfusion, ?_⟩
    obtain ⟨b, bs, hbs⟩ := List.exists_cons_of_ne_nil hpending
    rw [step_write_of_pending hopen hpending]
    cases hphase : d.talk.phase with
    | closing | serving => simp [effort, hphase, hended, hbs]
    | _ => exact absurd hphase (Conversation.phase_ne_over hopen)

/-- When the client has ended its side, reading and writing lead to the end. -/
theorem Sound.ends (hms : ∀ m ∈ ms, m.length ≤ maxFrame)
    (h : d.Sound conn ms written begun waiting left) (hended : d.talk.isEnded) :
    ∃ steps : List DialogueStep, (∀ t ∈ steps, t.IsOwn) ∧ d.Unbroken steps ∧
      (d.run steps).talk.isOver := by
  induction hn : d.effort using Nat.strongRecOn generalizing d written begun waiting left with
  | ind n ih =>
      cases hopen : d.talk.isOver with
      | true => exact ⟨[], List.forall_mem_nil _, trivial, hopen⟩
      | false =>
          obtain ⟨t, hown, htears, hended', hless⟩ := h.exists_step hms hended hopen
          obtain ⟨written, begun, waiting, left, h'⟩ := h.step hms htears
          rw [hn] at hless
          obtain ⟨steps, hsteps, hunbroken, hover⟩ := ih (d.step t).effort hless h' hended' rfl
          exact ⟨t :: steps, List.forall_mem_cons.mpr ⟨hown, hsteps⟩, ⟨htears, hunbroken⟩, hover⟩

end Dialogue

/-- Requests are answered in order, each with one whole reply. In any order of steps that does not
read the end of the requests while a frame is half written, what the stream has taken are whole
frames and the part that is not pending of the one begun, and the replies in them answer the first
of the requests, each dispatched in its turn. When the connection is over, every request that the
client sent has been answered and all replies have been written, or a reply or notification came
up that is too long for a frame. And once the client has ended its side, reading and writing lead
to this end. -/
theorem requests_answered_in_order (s : Server) (conn : Nat) {ms : List (List UInt8)}
    (hms : ∀ m ∈ ms, m.length ≤ maxFrame) {steps : List DialogueStep}
    (hsteps : (Dialogue.opening s conn ms).Unbroken steps) :
    let d := (Dialogue.opening s conn ms).run steps
    ∃ (written : List ServerMessage) (begun : Option ServerMessage) (part : List UInt8)
        (left : List (List UInt8)),
      d.talk.sent = stream written ++ part ∧ part ++ d.talk.pending = stream begun.toList ∧
      ms = d.asked.map (·.message) ++ left ∧
      replies (written ++ begun.toList) <+: d.answers conn ∧
      (∀ result, d.talk.phase = .over result →
        d.talk.sent = stream (written ++ begun.toList) ∧
        (result = .ok () ∧ left = [] ∧ replies (written ++ begun.toList) = d.answers conn ∨
          ∃ m, Dialogue.Spoils m result ∧
            replies (written ++ begun.toList) ++ m.response?.toList <+: d.answers conn)) ∧
      (d.talk.isEnded → ∃ more : List DialogueStep, (∀ t ∈ more, t.IsOwn) ∧ d.Unbroken more ∧
        (d.run more).talk.isOver) := by
  intro d
  obtain ⟨written, begun, waiting, left, h⟩ := (Dialogue.sound_opening s conn ms).run hms hsteps
  obtain ⟨part, hsent, hpart⟩ := h.sent
  refine ⟨written, begun, part, left, hsent, hpart, h.asked, h.answers_first, ?_, h.ends hms⟩
  intro result hover
  obtain ⟨hpending, hresult⟩ := h.finished result hover
  rw [hpending, List.append_nil] at hpart
  exact ⟨by rw [Wire.stream_append, ← hpart, hsent], hresult⟩

/-- The connection is over, and nothing went wrong. -/
def Phase.isDone : Phase → Bool
  | .over (.ok ()) => true
  | _ => false

theorem Phase.eq_of_isDone {p : Phase} (h : p.isDone) : p = .over (.ok ()) := by
  unfold isDone at h
  split at h
  · rfl
  · cases h

/-- A client sends a message that is no request and ends its side, and is told so. -/
theorem malformed_request_answered :
    let s : Server := {}
    let steps : List DialogueStep :=
      [.arrive 3, .read, .arrive 3, .finish, .read, .interject, .write 0, .write 5, .write 100,
        .read, .write 0]
    let d := (Dialogue.opening s 1 [[1, 2]]).run steps
    (∀ m ∈ [[1, 2]], List.length (α := UInt8) m ≤ maxFrame) ∧
    (Dialogue.opening s 1 [[1, 2]]).Unbroken steps ∧
    ∃ written, d.talk.sent = stream written ∧ replies written = d.answers 1 ∧
      d.asked.map (·.message) = [[1, 2]] := by
  intro s steps d
  have hms : ∀ m ∈ [[1, 2]], List.length (α := UInt8) m ≤ maxFrame := by decide
  have hsteps : (Dialogue.opening s 1 [[1, 2]]).Unbroken steps := by
    refine ⟨?_, fun h => ?_, ?_, ?_, fun h => ?_, ?_, ?_, ?_, ?_, fun h => ?_, ?_, trivial⟩
    -- The readings: the client has not ended its side, a request waits, no frame is half written.
    case refine_2 => exact absurd h.2.2.1 (by decide)
    case refine_5 => exact absurd h.2.2.2.1 (by decide)
    case refine_10 => exact h.2.2.2.2 (by decide +kernel)
    all_goals exact Dialogue.not_tears_of_ne DialogueStep.noConfusion
  have hover : d.talk.phase = .over (.ok ()) := Phase.eq_of_isDone (by decide +kernel)
  obtain ⟨written, begun, -, left, -, -, hasked, -, hend, -⟩ :=
    requests_answered_in_order s 1 hms hsteps
  obtain ⟨hsent, ⟨-, rfl, hall⟩ | ⟨m, ⟨-, hresult⟩, -⟩⟩ := hend _ hover
  · exact ⟨hms, hsteps, _, hsent, hall, by rw [hasked, List.append_nil]⟩
  · cases hresult

/-- A speaker with this name. -/
def speakerNamed (name : String) : Device :=
  { type := .speaker, role := .output, connectedAt := 1, name := name }

/-- A server with nothing but this speaker. -/
def serverWithSpeaker (name : String) : Server :=
  { station := { roster := (({} : Roster).connect 1 (speakerNamed name)).2 } }

/-- The message that asks for the public outputs. -/
def askOutputs : List UInt8 :=
  (Wire.Request.devices .output .isPublic).encode "audiod.IAudioProcess"

/-- The reply to the message, as long as the name of the speaker makes it. -/
def outputsReply (name : String) : List UInt8 :=
  replyMessage (Wire.Response.devices [speakerNamed name]).encode

theorem length_outputsReply (name : String) :
    (outputsReply name).length = (Utf8.encode name).length + 55 := by
  have hnetwork : (Utf8.encode localNetwork).length = 11 := by decide
  have hmac : (Utf8.encode "").length = 0 := by decide
  simp only [outputsReply, replyMessage, Wire.Response.encode, Wire.Response.payload,
    Wire.writeDevice, Wire.writeText, speakerNamed, List.length_append, List.flatMap_cons,
    List.flatMap_nil, List.length_nil, Wire.length_write32, Wire.length_write64,
    Wire.length_writeCode, hnetwork, hmac]
  omega

theorem dispatch_askOutputs (name : String) :
    ((Conversation.start (serverWithSpeaker name) 1).1.dispatch 1 askOutputs).1 =
      (Wire.Response.devices [speakerNamed name]).encode := by
  have htoken : TextFits "audiod.IAudioProcess" := by
    unfold TextFits
    decide
  have hdispatch := (Conversation.start (serverWithSpeaker name) 1).1.dispatch_encode 1 htoken
    (r := .devices .output .isPublic) nofun
  exact congrArg Prod.fst hdispatch

/-- A request whose reply is too long is the last to be read, and nothing is sent for it. -/
theorem run_of_long_reply (s : Server) (line : Nat) {conn : Nat} {message : List UInt8}
    (hmessage : message.length ≤ maxFrame)
    (hlong : maxFrame < (replyMessage (s.dispatch conn message).1).length) :
    let talk : Conversation := { conn := conn, line := line, isEnded := true }
    ∃ s', (Dialogue.mk s { talk with incoming := framed message } [] []).run
      [.read, .read, .write 0] = ⟨s', { talk with phase := .over (.error (.malformed
        s!"frame of {(replyMessage (s.dispatch conn message).1).length} bytes")) }, [],
        [⟨message, s⟩]⟩ := by
  intro talk
  let d : Dialogue := ⟨s, { talk with incoming := framed message }, [], []⟩
  have hread : d.step .read = ⟨(s.dispatch conn message).2,
      { talk with replies := [replyMessage (s.dispatch conn message).1] }, [], [⟨message, s⟩]⟩ :=
    Dialogue.step_read_of_request (d := d) rfl hmessage (List.append_nil _).symm (.inl rfl)
  have hend : (d.step .read).step .read = ⟨(s.dispatch conn message).2,
      { talk with replies := [replyMessage (s.dispatch conn message).1], phase := .closing }, [],
      [⟨message, s⟩]⟩ := by
    rw [hread]
    exact Dialogue.step_read_of_end rfl rfl rfl
  have hbegin (s' : Server) (c : Conversation) :
      Conversation.begin s' c (replyMessage (s.dispatch conn message).1) = Conversation.close s' c
        (.error (.malformed
          s!"frame of {(replyMessage (s.dispatch conn message).1).length} bytes")) := by
    unfold Conversation.begin Wire.frame
    rw [if_pos hlong]
  show ∃ s', ((d.step .read).step .read).step (.write 0) = _
  rw [hend, Dialogue.step_write_of_reply 0 rfl rfl rfl, hbegin]
  exact ⟨_, rfl⟩

/-- The one reply that a client has asked for is too long for a frame: the client, which has ended
its side and reads on to the end, gets none. -/
theorem long_reply_never_sent :
    let s := serverWithSpeaker (longText 1048576)
    let d := (Dialogue.opening s 1 [askOutputs]).run
      [.arrive 100, .finish, .read, .read, .write 0]
    askOutputs.length ≤ maxFrame ∧ d.asked.map (·.message) = [askOutputs] ∧ d.talk.isEnded ∧
    d.talk.phase = .over (.error (.malformed "frame of 1048631 bytes")) ∧ d.talk.sent = [] := by
  have hmessage : askOutputs.length ≤ maxFrame := by decide
  have hsize := length_outputsReply (longText 1048576)
  rw [length_encode_longText, outputsReply, ← dispatch_askOutputs] at hsize
  generalize longText 1048576 = name at hsize ⊢
  intro s d
  obtain ⟨s', hs'⟩ : ∃ s', s' = (Conversation.start s 1).1 := ⟨_, rfl⟩
  have harrived : (Dialogue.opening s 1 [askOutputs]).run [.arrive 100, .finish] =
      ⟨s', { conn := 1, line := 0, isEnded := true, incoming := framed askOutputs }, [], []⟩ := by
    have htake : (framed askOutputs).take 100 = framed askOutputs := by decide +kernel
    have hdrop : (framed askOutputs).drop 100 = [] := by decide +kernel
    simp [Dialogue.run, Dialogue.step, Dialogue.opening, Conversation.receive, Conversation.finish,
      htake, hdrop, hs', Conversation.start, Server.connect]
    rfl
  rw [← hs'] at hsize
  obtain ⟨s'', hend⟩ := run_of_long_reply s' 0 hmessage (by rw [hsize]; decide)
  have htext : s!"frame of {1048576 + 55} bytes" = "frame of 1048631 bytes" := by decide
  rw [hsize, htext, ← harrived, ← Dialogue.run_append] at hend
  rw [show d = _ from hend]
  exact ⟨hmessage, rfl, rfl, rfl, rfl⟩

namespace Dialogue

/-- The end of the requests was read when the stream had taken `before` and the replies `due`
waited. Of these `later` have been begun since and `waiting` are still to be. -/
structure Leaving (before : List UInt8) (due : List (List UInt8)) (d : Dialogue)
    (later waiting : List (List UInt8)) : Prop where
  phase : d.talk.phase ≠ .serving
  sent : d.talk.sent ++ d.talk.pending = before ++ stream (later.map .reply)
  backlog : d.talk.replies = waiting.map replyMessage
  given : later <+: due
  rest : d.talk.isOver = false → later ++ waiting = due

section Leaving
variable {d : Dialogue} {before : List UInt8} {due later waiting : List (List UInt8)} {s' : Server}
  {c' : Conversation}

theorem Leaving.writes (h : d.Leaving before due later waiting)
    (hwrites : Conversation.Writes d.server d.talk s' c') :
    ∃ later waiting, (d.put (s', c')).Leaving before due later waiting := by
  have hsent := h.sent
  cases hwrites with
  | still => exact ⟨later, waiting, h⟩
  | part n hopen =>
      exact ⟨later, waiting, h.phase, by simp [put, hsent], h.backlog, h.given, h.rest⟩
  | reply hopen hpending hreplies hbegins =>
      rw [h.backlog] at hreplies
      obtain ⟨response, rest, rfl, rfl, rfl⟩ := List.map_eq_cons_iff.mp hreplies
      have hrest := h.rest hopen
      rw [hpending, List.append_nil] at hsent
      cases hbegins with
      | fits hlen =>
          rw [List.append_cons] at hrest
          refine ⟨later ++ [response], rest, h.phase, ?_, rfl, ⟨_, hrest⟩, fun _ => hrest⟩
          simp [put, hsent, ServerMessage.encode]
      | refused hlen =>
          exact ⟨later, rest, Phase.noConfusion, by simp [put, hsent, hpending], rfl, h.given,
            fun hopen => (by cases hopen)⟩
  | note hserving => exact absurd hserving h.phase
  | done s' hclosing hpending hreplies =>
      exact ⟨later, waiting, Phase.noConfusion, hsent, h.backlog, h.given,
        fun hopen => (by cases hopen)⟩

theorem Leaving.step (h : d.Leaving before due later waiting) (t : DialogueStep) :
    ∃ later waiting, (d.step t).Leaving before due later waiting := by
  cases t with
  | arrive n => exact ⟨later, waiting, h.phase, h.sent, h.backlog, h.given, h.rest⟩
  | finish =>
      refine ⟨later, waiting, ?_⟩
      unfold Dialogue.step
      dsimp only
      split
      · exact ⟨h.phase, h.sent, h.backlog, h.given, h.rest⟩
      · exact h
  | read =>
      obtain ⟨hrequest, hread⟩ := Conversation.readStep_of_idle (s := d.server) (.inl h.phase)
      refine ⟨later, waiting, ?_⟩
      simpa [Dialogue.step, put, hrequest, hread] using h
  | write n => exact h.writes (Conversation.writes_writeStep n _ _)
  | interject => exact h.writes (Conversation.writes_interject _ _)
  | elsewhere s => exact ⟨later, waiting, h.phase, h.sent, h.backlog, h.given, h.rest⟩

theorem Leaving.run (h : d.Leaving before due later waiting) (steps : List DialogueStep) :
    ∃ later waiting, (d.run steps).Leaving before due later waiting := by
  induction steps generalizing d later waiting with
  | nil => exact ⟨later, waiting, h⟩
  | cons t steps ih =>
      obtain ⟨later, waiting, h⟩ := h.step t
      exact ih h

end Leaving

end Dialogue

/-- When the end of the requests is read while a frame is half written, the rest of the frame never
follows. Behind the part that the stream has taken there are only frames of the replies that waited
then. -/
theorem torn_frame_given_up (s : Server) (conn : Nat) {ms : List (List UInt8)}
    (hms : ∀ m ∈ ms, m.length ≤ maxFrame) {steps : List DialogueStep}
    (hsteps : (Dialogue.opening s conn ms).Unbroken steps)
    (htears : ((Dialogue.opening s conn ms).run steps).Tears .read) :
    let d := (Dialogue.opening s conn ms).run steps
    ∃ (written : List ServerMessage) (torn : ServerMessage) (part : List UInt8)
        (due : List (List UInt8)),
      d.talk.sent = stream written ++ part ∧ part ++ d.talk.pending = framed torn.encode ∧
      d.talk.pending ≠ [] ∧ replies (written ++ [torn]) ++ due = d.answers conn ∧
      ∀ more, ∃ later, later <+: due ∧
        let d' := (d.step .read).run more
        d'.talk.sent ++ d'.talk.pending = stream written ++ part ++ stream (later.map .reply) := by
  intro d
  obtain ⟨-, hserving, hended, hincoming, hpending⟩ := htears
  obtain ⟨written, begun, waiting, left, h⟩ := (Dialogue.sound_opening s conn ms).run hms hsteps
  obtain ⟨part, hsent, hpart⟩ := h.sent
  have hanswered := h.answered (by simp [Conversation.isOver, hserving])
  cases begun with
  | none => exact absurd (List.append_eq_nil_iff.mp hpart).2 hpending
  | some torn =>
      refine ⟨written, torn, part, waiting, hsent, by simpa using hpart, hpending, hanswered, ?_⟩
      intro more
      have hleaving : (d.step .read).Leaving (stream written ++ part) waiting [] waiting := by
        rw [Dialogue.step_read_of_end hserving hended hincoming]
        refine ⟨Phase.noConfusion, ?_, h.backlog, List.nil_prefix, fun _ => rfl⟩
        rw [← hsent]
        simp
      obtain ⟨later, waiting, h'⟩ := hleaving.run more
      exact ⟨later, h'.given, h'.sent⟩

/-- Of the reply to the one request five bytes are sent. -/
example : ((Dialogue.opening {} 1 [[1, 2]]).run
    [.arrive 6, .finish, .read, .write 0, .write 5, .read, .write 0]).talk.sent.length = 5 := by
  decide +kernel

end Patchbay
