import Patchbay.Proofs.Wire.Frames

/-!
# Mailboxes

Replies and notifications reach a client over one stream. A client that calls and asks for
notifications, in any order, gets the replies in their order as the answers of its calls, and the
notifications in theirs, whichever calls they arrived during.
-/
namespace Patchbay.Wire

namespace ServerMessage

/-- The message as the server writes it. -/
def encode : ServerMessage → List UInt8
  | reply response => replyMessage response
  | notification n => n.encode

/-- The message fits a frame, and a client can read it. -/
def Fits : ServerMessage → Prop
  | reply response => (replyMessage response).length ≤ maxFrame
  | notification n => n.Fits

def response? : ServerMessage → Option (List UInt8)
  | reply response => some response
  | notification _ => none

def note? : ServerMessage → Option Notification
  | reply _ => none
  | notification n => some n

end ServerMessage

/-- What the server writes to send these messages. -/
def stream (ms : List ServerMessage) : List UInt8 :=
  ms.flatMap fun m => framed m.encode

/-- The replies among the messages. -/
def replies (ms : List ServerMessage) : List (List UInt8) :=
  ms.filterMap ServerMessage.response?

/-- The notifications among the messages. -/
def notes (ms : List ServerMessage) : List Notification :=
  ms.filterMap ServerMessage.note?

/-- A frame that has arrived whole is the first of those that are sent. -/
theorem front_of_frames {bs more : List UInt8} {ms : List (List UInt8)}
    (hms : ∀ m ∈ ms, m.length ≤ maxFrame) (hbytes : bs ++ more = ms.flatMap framed)
    (hfour : 4 ≤ bs.length) (hwhole : LittleEndian.value (bs.take 4) ≤ maxFrame →
      4 + LittleEndian.value (bs.take 4) ≤ bs.length) :
    ∃ message ms' rest, ms = message :: ms' ∧ bs = framed message ++ rest ∧
      rest ++ more = ms'.flatMap framed := by
  cases ms with
  | nil =>
      have hnil : bs = [] := (List.append_eq_nil_iff.mp hbytes).1
      rw [hnil] at hfour
      cases hfour
  | cons message ms =>
      have hmessage := hms message List.mem_cons_self
      rw [List.flatMap_cons] at hbytes
      have hword : bs.take 4 = write32 (UInt32.ofNat message.length) := by
        rw [← List.take_append_of_le_length hfour, hbytes, take_four_framed]
      rw [hword, value_length hmessage] at hwhole
      have hsize : (framed message).length ≤ bs.length := by
        rw [framed, List.length_append, length_write32]
        exact hwhole hmessage
      obtain ⟨rest, hrest⟩ : framed message <+: bs :=
        List.prefix_of_prefix_length_le ⟨_, rfl⟩ ⟨_, hbytes⟩ hsize
      refine ⟨message, ms, rest, rfl, hrest.symm, ?_⟩
      rw [← hrest, List.append_assoc] at hbytes
      exact List.append_cancel_left hbytes

section Stream
variable {m : ServerMessage} {ms left : List ServerMessage} {response : List UInt8}
  {n : Notification}

@[simp]
theorem stream_nil : stream [] = [] := rfl

@[simp]
theorem stream_cons : stream (m :: ms) = framed m.encode ++ stream ms := rfl

@[simp]
theorem stream_append : stream (ms ++ left) = stream ms ++ stream left :=
  List.flatMap_append

@[simp]
theorem replies_nil : replies [] = [] := rfl

@[simp]
theorem replies_reply : replies (.reply response :: ms) = response :: replies ms := rfl

@[simp]
theorem replies_notification : replies (.notification n :: ms) = replies ms := rfl

@[simp]
theorem replies_append : replies (ms ++ left) = replies ms ++ replies left :=
  List.filterMap_append

@[simp]
theorem notes_nil : notes [] = [] := rfl

@[simp]
theorem notes_reply : notes (.reply response :: ms) = notes ms := rfl

@[simp]
theorem notes_notification : notes (.notification n :: ms) = n :: notes ms := rfl

@[simp]
theorem notes_append : notes (ms ++ left) = notes ms ++ notes left :=
  List.filterMap_append

@[simp]
theorem replies_map_notification (ns : List Notification) :
    replies (ns.map .notification) = [] := by
  induction ns with
  | nil => rfl
  | cons n ns ih => exact ih

@[simp]
theorem notes_map_notification (ns : List Notification) :
    notes (ns.map .notification) = ns := by
  induction ns with
  | nil => rfl
  | cons n ns ih => exact congrArg (n :: ·) ih

theorem stream_map_notification (ns : List Notification) :
    stream (ns.map .notification) = ns.flatMap fun n => framed n.encode := by
  rw [stream, List.flatMap_map]
  rfl

/-- Up to the first reply there are notifications only. -/
theorem split_reply (h : replies ms ≠ []) :
    ∃ (ns : List Notification) (response : List UInt8) (left : List ServerMessage),
      ms = ns.map .notification ++ .reply response :: left := by
  induction ms with
  | nil => exact absurd rfl h
  | cons m ms ih =>
      cases m with
      | reply response => exact ⟨[], response, ms, rfl⟩
      | notification n =>
          obtain ⟨ns, response, left, rfl⟩ := ih h
          exact ⟨n :: ns, response, left, rfl⟩

theorem eq_map_of_replies_nil (h : replies ms = []) : ms = (notes ms).map .notification := by
  induction ms with
  | nil => rfl
  | cons m ms ih =>
      cases m with
      | reply response => cases h
      | notification n => exact congrArg (.notification n :: ·) (ih h)

theorem framed_encode_ne_framed_reply {bs rest : List UInt8} :
    framed n.encode ++ bs ≠ framed (replyMessage response) ++ rest := by
  intro h
  have hdrop := congrArg (List.drop 4) h
  rw [drop_four_framed, drop_four_framed, Notification.encode, replyMessage, List.append_assoc,
    List.append_assoc] at hdrop
  have hkind := congrArg (List.take 4) hdrop
  rw [List.take_left' (length_write32 _), List.take_left' (length_write32 _)] at hkind
  exact absurd hkind (by decide)

theorem ServerMessage.length_encode_le (h : m.Fits) : m.encode.length ≤ maxFrame := by
  cases m with
  | reply response => exact h
  | notification n => exact Notification.length_encode_le h

theorem ServerMessage.decode_encode (h : m.Fits) : decode m.encode = .ok m := by
  cases m with
  | reply response => exact decode_replyMessage
  | notification n => exact decode_notification h

end Stream

/-- What the owner of a client does with it. -/
inductive Use where
  | call (r : Request)
  /-- Waits for a notification. -/
  | next
  /-- Asks for a notification that is there already. -/
  | poll
deriving DecidableEq, Repr

/-- One use, with what it returned. -/
inductive Turn where
  | call (r : Request) (answer : Except WireError Response)
  | next (n : Except WireError Notification)
  | poll (n : Option Notification)

namespace Turn

/-- The notification that was handed out. -/
def handed? : Turn → Option Notification
  | call _ _ => none
  | next n => n.toOption
  | poll n => n

/-- A wait for a notification has not failed. -/
def Served : Turn → Prop
  | next n => n.isOk = true
  | _ => True

end Turn

/-- The notifications handed out, in order. -/
def handed (ts : List Turn) : List Notification :=
  ts.filterMap Turn.handed?

/-- A client with this token can write the request. -/
def Sendable (token : String) (r : Request) : Prop :=
  (r.encode token).length ≤ maxFrame

instance (token : String) (r : Request) : Decidable (Sendable token r) :=
  inferInstanceAs (Decidable (_ ≤ _))

/-- The request that the use sends. -/
def Use.sends? (token : String) : Use → Option Request
  | .call r => if Sendable token r then some r else none
  | _ => none

/-- The requests that are sent, in order. -/
def sent (token : String) (us : List Use) : List Request :=
  us.filterMap (Use.sends? token)

/-- The request that was sent, with the answer its call gave. -/
def Turn.answer? (token : String) : Turn → Option (Request × Except WireError Response)
  | .call r answer => if Sendable token r then some (r, answer) else none
  | _ => none

/-- The answers of the calls whose requests were sent, in order. -/
def answers (token : String) (ts : List Turn) : List (Request × Except WireError Response) :=
  ts.filterMap (Turn.answer? token)

section Turns
variable {token : String} {us us' : List Use} {ts ts' : List Turn} {t : Turn}

@[simp]
theorem sent_append : sent token (us ++ us') = sent token us ++ sent token us' :=
  List.filterMap_append

@[simp]
theorem answers_append : answers token (ts ++ ts') = answers token ts ++ answers token ts' :=
  List.filterMap_append

@[simp]
theorem handed_append : handed (ts ++ ts') = handed ts ++ handed ts' :=
  List.filterMap_append

theorem handed_singleton : handed [t] = t.handed?.toList := by
  cases h : t.handed? <;> simp [handed, h]

end Turns

/-- A request that is too long is refused before anything is sent. -/
def Turn.Refuses (token : String) : Turn → Prop
  | .call r answer => ¬ Sendable token r →
      answer = .error (.malformed s!"frame of {(r.encode token).length} bytes")
  | _ => True

/-- The answer that a reply carries to a request. -/
def answerOf (r : Request) (response : List UInt8) : Request × Except WireError Response :=
  (r, decode (Response.readFor r.kind) response)

namespace Client

def perform (c : Client) : Use → Turn × Client
  | .call r => (.call r (c.call r).1, (c.call r).2)
  | .next => (.next c.nextNotification.1, c.nextNotification.2)
  | .poll => (.poll c.queued?.1, c.queued?.2)

def performAll (c : Client) : List Use → List Turn × Client
  | [] => ([], c)
  | u :: us =>
    let (t, c) := c.perform u
    let (ts, c) := c.performAll us
    (t :: ts, c)

/-- A notification is kept or comes next. -/
def Awaits (c : Client) : Prop :=
  c.queue ≠ [] ∨ ∃ n left, c.incoming = framed (Notification.encode n) ++ left

/-- The client is asked to wait for a notification only where there is one. -/
def Prudent (c : Client) : List Use → Prop
  | [] => True
  | u :: us => (u = .next → c.Awaits) ∧ (c.perform u).2.Prudent us

variable {c : Client} {r : Request} {ms left : List ServerMessage} {response : List UInt8}
  {n : Notification} {us : List Use}

theorem send_of_sendable (h : Sendable c.token r) :
    c.send r = (.ok (), { c with outgoing := c.outgoing ++ framed (r.encode c.token) }) := by
  unfold send
  rw [frame_eq_ok h]

theorem call_of_not_sendable (h : ¬ Sendable c.token r) :
    c.call r = (.error (.malformed s!"frame of {(r.encode c.token).length} bytes"), c) := by
  have hframe : frame (r.encode c.token) =
      .error (.malformed s!"frame of {(r.encode c.token).length} bytes") :=
    if_pos (Nat.lt_of_not_le h)
  unfold call send
  rw [hframe]

/-- A call takes the next reply and keeps the notifications before it. -/
theorem call_of_stream {ns : List Notification} (hsend : Sendable c.token r)
    (hfits : ∀ m ∈ ns.map ServerMessage.notification ++ .reply response :: left, m.Fits)
    (hincoming : c.incoming = stream (ns.map .notification ++ .reply response :: left)) :
    c.call r = (decode (Response.readFor r.kind) response,
      { c with
        incoming := stream left
        outgoing := c.outgoing ++ framed (r.encode c.token)
        queue := c.queue ++ ns }) := by
  have hnotes : ∀ n ∈ ns, n.Fits := fun n hn =>
    hfits (.notification n) (List.mem_append_left _ (List.mem_map_of_mem hn))
  have hreply : (replyMessage response).length ≤ maxFrame :=
    hfits (.reply response) (by simp)
  rw [stream_append, stream_map_notification, stream_cons, ServerMessage.encode] at hincoming
  have hnext := nextReply_of_notes (c := { c with
    outgoing := c.outgoing ++ framed (r.encode c.token) }) hnotes hreply hincoming
  unfold call receive
  rw [send_of_sendable hsend]
  simp only [hnext]

theorem nextNotification_of_queue {ns : List Notification} (h : c.queue = n :: ns) :
    c.nextNotification = (.ok n, { c with queue := ns }) := by
  unfold nextNotification
  rw [h]

theorem nextMessage_of_stream (hm : m.Fits) (hincoming : c.incoming = stream (m :: left)) :
    c.nextMessage = (.ok m, { c with incoming := stream left }) :=
  nextMessage_framed (ServerMessage.length_encode_le hm) (ServerMessage.decode_encode hm) hincoming

/-- Where none is kept, the next notification is read off the stream. -/
theorem nextNotification_of_stream (hqueue : c.queue = []) (hn : n.Fits)
    (hincoming : c.incoming = stream (.notification n :: left)) :
    c.nextNotification = (.ok n, { c with incoming := stream left }) := by
  have hnext := nextMessage_of_stream (m := .notification n) hn hincoming
  unfold nextNotification
  rw [hqueue]
  simp only [hnext, hqueue]

theorem Awaits.cases (h : c.Awaits) (hincoming : c.incoming = stream ms) :
    (∃ n ns, c.queue = n :: ns) ∨ c.queue = [] ∧ ∃ n left, ms = .notification n :: left := by
  cases hq : c.queue with
  | cons n ns => exact .inl ⟨n, ns, rfl⟩
  | nil =>
      obtain ⟨n, bs, hbs⟩ := h.resolve_left (absurd hq)
      rw [hincoming] at hbs
      cases ms with
      | nil => exact absurd (List.append_eq_nil_iff.mp hbs.symm).1 framed_ne_nil
      | cons m ms =>
          cases m with
          | reply response => exact absurd hbs.symm framed_encode_ne_framed_reply
          | notification n => exact .inr ⟨rfl, n, ms, rfl⟩

/-- What uses give and leave, of the messages `ms` that are still to be read: `read` are read and
`left` are left, the requests sent are answered by the replies that were read, and the
notifications that were read have gone through the queue. -/
structure Sorts (c : Client) (us : List Use) (ts : List Turn) (c' : Client)
    (ms read left : List ServerMessage) : Prop where
  split : ms = read ++ left
  incoming : c'.incoming = stream left
  token : c'.token = c.token
  replies : (Wire.replies read).length = (sent c.token us).length
  answers : Wire.answers c.token ts = List.zipWith answerOf (sent c.token us) (Wire.replies read)
  notes : handed ts ++ c'.queue = c.queue ++ Wire.notes read
  sound : ∀ t ∈ ts, t.Served ∧ t.Refuses c.token

theorem Sorts.refl (hincoming : c.incoming = stream ms) : c.Sorts [] [] c ms [] ms :=
  ⟨rfl, hincoming, rfl, rfl, rfl, by simp [handed, Wire.notes], by simp⟩

theorem Sorts.append {us' : List Use} {ts ts' : List Turn} {c' c'' : Client}
    {read read' left' : List ServerMessage} (h : c.Sorts us ts c' ms read left)
    (h' : c'.Sorts us' ts' c'' left read' left') :
    c.Sorts (us ++ us') (ts ++ ts') c'' ms (read ++ read') left' where
  split := by rw [h.split, h'.split, List.append_assoc]
  incoming := h'.incoming
  token := h'.token.trans h.token
  replies := by
    rw [replies_append, sent_append, List.length_append, List.length_append, h.replies, h'.replies,
      h.token]
  answers := by
    rw [answers_append, sent_append, replies_append, List.zipWith_append h.replies.symm, h.answers,
      ← h.token, h'.answers]
  notes := by
    rw [handed_append, notes_append, List.append_assoc, h'.notes, ← List.append_assoc, h.notes,
      List.append_assoc]
  sound := by
    have hsound := h'.sound
    rw [h.token] at hsound
    exact List.forall_mem_append.mpr ⟨h.sound, hsound⟩

theorem sorts_call (hfits : ∀ m ∈ ms, m.Fits) (hincoming : c.incoming = stream ms)
    (hreplies : (sent c.token [.call r]).length ≤ (replies ms).length) :
    ∃ read left, c.Sorts [.call r] [.call r (c.call r).1] (c.call r).2 ms read left := by
  by_cases hsend : Sendable c.token r
  · have hsent : sent c.token [.call r] = [r] := by simp [sent, Use.sends?, hsend]
    rw [hsent] at hreplies
    obtain ⟨ns, response, left, rfl⟩ := split_reply (List.ne_nil_of_length_pos hreplies)
    have hread : replies (ns.map .notification ++ [.reply response]) = [response] := by simp
    rw [call_of_stream hsend hfits hincoming]
    refine ⟨ns.map .notification ++ [.reply response], left, by simp, rfl, rfl, ?_, ?_, ?_, ?_⟩
    · rw [hread, hsent]
      rfl
    · rw [hread, hsent]
      simp [Wire.answers, Turn.answer?, hsend, answerOf]
    · simp [handed_singleton, Turn.handed?]
    · simp [Turn.Served, Turn.Refuses, hsend]
  · have hsent : sent c.token [.call r] = [] := by simp [sent, Use.sends?, hsend]
    rw [call_of_not_sendable hsend]
    refine ⟨[], ms, rfl, hincoming, rfl, by rw [hsent]; rfl, ?_, ?_, ?_⟩
    · rw [hsent]
      simp [Wire.answers, Turn.answer?, hsend]
    · simp [handed_singleton, Turn.handed?]
    · simp [Turn.Served, Turn.Refuses]

theorem sorts_next (hfits : ∀ m ∈ ms, m.Fits) (hincoming : c.incoming = stream ms)
    (hawaits : c.Awaits) : ∃ read left,
      c.Sorts [.next] [.next c.nextNotification.1] c.nextNotification.2 ms read left := by
  obtain ⟨n, ns, hqueue⟩ | ⟨hqueue, n, left, rfl⟩ := hawaits.cases hincoming
  · rw [nextNotification_of_queue hqueue]
    refine ⟨[], ms, rfl, hincoming, rfl, rfl, rfl, ?_, ?_⟩
    · simp [handed_singleton, Turn.handed?, hqueue, Except.toOption]
    · simp [Turn.Served, Turn.Refuses, Except.isOk, Except.toBool]
  · rw [nextNotification_of_stream hqueue (hfits _ List.mem_cons_self) hincoming]
    refine ⟨[.notification n], left, rfl, rfl, rfl, rfl, rfl, ?_, ?_⟩
    · simp [handed_singleton, Turn.handed?, hqueue, Except.toOption]
    · simp [Turn.Served, Turn.Refuses, Except.isOk, Except.toBool]

theorem sorts_poll (hincoming : c.incoming = stream ms) :
    ∃ read left, c.Sorts [.poll] [.poll c.queued?.1] c.queued?.2 ms read left := by
  unfold queued?
  cases hqueue : c.queue with
  | nil =>
      exact ⟨[], ms, rfl, hincoming, rfl, rfl, rfl,
        by simp [handed_singleton, Turn.handed?, hqueue], by simp [Turn.Served, Turn.Refuses]⟩
  | cons n ns =>
      exact ⟨[], ms, rfl, hincoming, rfl, rfl, rfl,
        by simp [handed_singleton, Turn.handed?, hqueue], by simp [Turn.Served, Turn.Refuses]⟩

theorem sorts_perform {u : Use} (hfits : ∀ m ∈ ms, m.Fits) (hincoming : c.incoming = stream ms)
    (hawaits : u = .next → c.Awaits) (hreplies : (sent c.token [u]).length ≤ (replies ms).length) :
    ∃ read left, c.Sorts [u] [(c.perform u).1] (c.perform u).2 ms read left := by
  cases u with
  | call r => exact sorts_call hfits hincoming hreplies
  | next => exact sorts_next hfits hincoming (hawaits rfl)
  | poll => exact sorts_poll hincoming

theorem sorts_performAll (hfits : ∀ m ∈ ms, m.Fits) (hincoming : c.incoming = stream ms)
    (hprudent : c.Prudent us) (hreplies : (sent c.token us).length ≤ (replies ms).length) :
    ∃ read left, c.Sorts us (c.performAll us).1 (c.performAll us).2 ms read left := by
  induction us generalizing c ms with
  | nil => exact ⟨[], ms, .refl hincoming⟩
  | cons u us ih =>
      have hsent : sent c.token (u :: us) = sent c.token [u] ++ sent c.token us := by
        rw [← sent_append, List.singleton_append]
      rw [hsent, List.length_append] at hreplies
      obtain ⟨read, left, h⟩ := sorts_perform hfits hincoming hprudent.1 (by omega)
      have hlength := congrArg (fun ms => (replies ms).length) h.split
      simp only [replies_append, List.length_append, h.replies] at hlength
      obtain ⟨read', left', h'⟩ := ih
        (fun m hm => hfits m (h.split ▸ List.mem_append_right _ hm)) h.incoming hprudent.2
        (by rw [h.token]; omega)
      exact ⟨_, left', h.append h'⟩

/-- A client that is used in any way on the stream of a server: the calls are answered by the
replies, each by its own, and the notifications handed out are the first of those sent, in their
order, the others being kept or still to be read. No request is lost that could be written, and no
wait for a notification fails that is called where there is one. -/
theorem calls_answered_notes_in_order (hqueue : c.queue = []) (hincoming : c.incoming = stream ms)
    (hfits : ∀ m ∈ ms, m.Fits) (hprudent : c.Prudent us)
    (hreplies : (sent c.token us).length ≤ (replies ms).length) :
    let (ts, c') := c.performAll us
    answers c.token ts = List.zipWith answerOf (sent c.token us) (replies ms) ∧
    (∀ t ∈ ts, t.Served ∧ t.Refuses c.token) ∧
    handed ts <+: notes ms ∧
    ∃ left, c'.incoming = stream left ∧ handed ts ++ (c'.queue ++ notes left) = notes ms ∧
      (sent c.token us).length + (replies left).length = (replies ms).length := by
  obtain ⟨read, left, h⟩ := sorts_performAll hfits hincoming hprudent hreplies
  have hnotes : handed (c.performAll us).1 ++ ((c.performAll us).2.queue ++ notes left) =
      notes ms := by
    rw [h.split, notes_append, ← List.append_assoc, h.notes, hqueue, List.nil_append]
  refine ⟨?_, h.sound, ⟨_, hnotes⟩, left, h.incoming, hnotes, ?_⟩
  · have hzip : List.zipWith answerOf (sent c.token us ++ []) (replies read ++ replies left) =
        List.zipWith answerOf (sent c.token us) (replies read) ++ [] :=
      List.zipWith_append h.replies.symm
    rw [List.append_nil, List.append_nil] at hzip
    rw [h.answers, h.split, replies_append, hzip]
  · rw [h.split, replies_append, List.length_append, h.replies]

/-- A call that arrives between two notes keeps the first and leaves the second. -/
theorem ringer_answered_between_notes :
    let route : Notification := .parameter ⟨none, "route", "", "auto"⟩
    let lost : Notification := .teardown 7 "lost"
    let ms : List ServerMessage :=
      [.notification route, .reply (Response.ringerMode .silent).encode, .notification lost]
    let c : Client := { token := "audiod.IAudioProcess", incoming := stream ms }
    let us : List Use := [.poll, .call .ringer, .next, .next]
    (∀ m ∈ ms, m.Fits) ∧ c.Prudent us ∧
      (sent c.token us).length ≤ (replies ms).length ∧
      answers c.token (c.performAll us).1 = [(.ringer, .ok (.ringerMode .silent))] ∧
      handed (c.performAll us).1 <+: [route, lost] := by
  intro route lost ms c us
  have hfits : ∀ m ∈ ms, m.Fits := by
    have hroute : route.Fits := by
      refine ⟨?_, ?_, ?_, ?_⟩ <;>
        · unfold TextFits
          decide
    have hlost : lost.Fits := by
      show TextFits "lost"
      unfold TextFits
      decide
    have hreply : ServerMessage.Fits (.reply (Response.ringerMode .silent).encode) := by
      show List.length _ ≤ maxFrame
      decide
    exact List.forall_mem_cons.mpr ⟨hroute, List.forall_mem_cons.mpr
      ⟨hreply, List.forall_mem_singleton.mpr hlost⟩⟩
  have hprudent : c.Prudent us := by
    refine ⟨nofun, nofun, fun _ => .inl ?_, fun _ => .inr ⟨lost, [], ?_⟩, trivial⟩
    · decide +kernel
    · decide +kernel
  have hreplies : (sent c.token us).length ≤ (replies ms).length := by decide +kernel
  obtain ⟨hanswers, -, hhanded, -⟩ :=
    calls_answered_notes_in_order (c := c) rfl rfl hfits hprudent hreplies
  have hringer : List.zipWith answerOf (sent c.token us) (replies ms) =
      [(.ringer, .ok (.ringerMode .silent))] := by decide +kernel
  exact ⟨hfits, hprudent, hreplies, hanswers.trans hringer, hhanded⟩

end Client
end Patchbay.Wire
