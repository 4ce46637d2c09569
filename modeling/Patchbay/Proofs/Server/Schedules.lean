import Patchbay.Proofs.Server.Dialogues
import Patchbay.Proofs.Wire.Arrivals

/-!
# Calls under any schedule

A request arrives in parts, frames are written in parts, and a notification on the line of the
connection may be begun before the reply or after it. Whatever the order, a reply that the client
finds is what the handler answered when the request was dispatched. If nothing happens elsewhere,
the call comes to rest, and then the client has its answer, the server is as the handler leaves it,
and what waited on the line has been sent.
-/
namespace Patchbay
open Wire (Notification Request Response ServerMessage TextFits framed maxFrame notes replies
  replyMessage stream)

variable {s : Server} {conn line : Nat} {r : Request} {left after : List Notification}

namespace Server

/-- Leaves these notifications on a line. -/
def leave (s : Server) (line : Nat) (left : List Notification) : Server :=
  { s with lines := s.lines.modify line fun box => { box with queue := left } }

theorem handle_leave (s : Server) (line : Nat) (left : List Notification) (conn : Nat)
    (r : Request) : (s.leave line left).handle conn r =
      ((s.handle conn r).1, (s.handle conn r).2.leave line left) := by
  rw [leave, handle_withLines, leave, lines_handle]

@[simp]
theorem leave_leave : (s.leave line left).leave line after = s.leave line after := by
  simp only [leave, List.modify_modify_eq]
  rfl

theorem leave_takeLine (s : Server) (line : Nat) : s.leave line (s.takeLine line).1 = s := by
  have hlines : s.lines.modify line (fun box => { box with queue := (s.takeLine line).1 }) =
      s.lines := by
    refine List.ext_getElem? fun i => ?_
    rw [List.getElem?_modify]
    by_cases hi : line = i
    · subst hi
      cases hbox : s.lines[line]? <;> simp [takeLine, Inboxes.take, hbox]
    · simp [hi]
  unfold leave
  rw [hlines]

theorem takeLine_of_empty (h : (s.takeLine line).1 = []) : (s.takeLine line).2 = s := by
  have hleave := s.leave_takeLine line
  rw [h] at hleave
  exact hleave

theorem takeLine_leave (h : left <:+ (s.takeLine line).1) :
    ((s.leave line left).takeLine line).1 = left := by
  simp only [takeLine, Inboxes.take, leave, List.getElem?_modify_eq] at h ⊢
  cases hbox : s.lines[line]? with
  | none =>
      rw [hbox] at h
      exact (List.suffix_nil.mp h).symm
  | some box => rfl

theorem takeLine_of_getElem? {queue : List Notification} {isOpen : Bool}
    (h : s.lines[line]? = some ⟨queue, isOpen⟩) : (s.takeLine line).1 = queue := by
  simp [takeLine, Inboxes.take, h]

theorem set_lines_eq_leave {queue : List Notification} {isOpen : Bool}
    (h : s.lines[line]? = some ⟨queue, isOpen⟩) :
    { s with lines := s.lines.set line ⟨left, isOpen⟩ } = s.leave line left := by
  have : Inhabited (Inbox Notification) := ⟨⟨[], true⟩⟩
  simp [leave, List.modify_eq_set, h]

theorem dispatch_leave (htoken : TextFits s.token) (hr : r.Fits) :
    (s.leave line left).dispatch conn (r.encode s.token) =
      (Wire.encodeOutcome (s.handle conn r).1, (s.handle conn r).2.leave line left) := by
  have hdispatch := (s.leave line left).dispatch_encode conn htoken hr
  rw [handle_leave] at hdispatch
  exact hdispatch

end Server

/-- What a call sends fits frames: the request, its reply, and what waits on the line. -/
structure Server.Carries (s : Server) (conn line : Nat) (r : Request) : Prop where
  token : TextFits s.token
  request : r.Fits
  reply : (replyMessage (Wire.encodeOutcome (s.handle conn r).1)).length ≤ maxFrame
  notes : ∀ n ∈ (s.takeLine line).1, n.encode.length ≤ maxFrame

/-- Nothing happens elsewhere, and the client does not end its side. -/
def DialogueStep.IsCalm : DialogueStep → Prop
  | .finish | .elsewhere _ => False
  | _ => True

namespace Dialogue

/-- Nothing is left to arrive, to be read or to be written. -/
def IsQuiet (d : Dialogue) : Prop :=
  d.coming = [] ∧ d.talk.canRead = false ∧ d.talk.canWrite d.server = false

/-- How far a request has got: the bytes of it that are still to be read, the replies given, and
the server. -/
inductive Stage (s : Server) (conn line : Nat) (r : Request) (left : List Notification) :
    List UInt8 → List (List UInt8) → Server → Prop
  | asked : Stage s conn line r left (framed (r.encode s.token)) [] (s.leave line left)
  | answered : Stage s conn line r left [] [Wire.encodeOutcome (s.handle conn r).1]
      ((s.handle conn r).2.leave line left)

/-- The request `r` was sent when the server was `s`. The messages `ms` have been begun since, and
the replies `waiting` are still to be. The notifications `left` are still on the line. -/
structure Calling (s : Server) (conn line : Nat) (r : Request) (d : Dialogue)
    (ms : List ServerMessage) (waiting : List (List UInt8)) (left : List Notification) : Prop where
  connection : d.talk.conn = conn
  linked : d.talk.line = line
  serving : d.talk.phase = .serving
  listening : d.talk.isEnded = false
  sent : d.talk.sent ++ d.talk.pending = stream ms
  backlog : d.talk.replies = waiting.map replyMessage
  noted : notes ms ++ left = (s.takeLine line).1
  stage : Stage s conn line r left (d.talk.incoming ++ d.coming) (replies ms ++ waiting) d.server

section Calm
variable {d : Dialogue} {ms : List ServerMessage} {waiting : List (List UInt8)}
  {bs : List UInt8} {given : List (List UInt8)} {s' : Server} {c' : Conversation}

theorem Stage.leave (h : Stage s conn line r left bs given s') (after : List Notification) :
    Stage s conn line r after bs given (s'.leave line after) := by
  cases h with
  | asked =>
      rw [Server.leave_leave]
      exact .asked
  | answered =>
      rw [Server.leave_leave]
      exact .answered

theorem Stage.leave_self (h : Stage s conn line r left bs given s') :
    s'.leave line left = s' := by
  cases h <;> exact Server.leave_leave

theorem Stage.takeLine (h : Stage s conn line r left bs given s')
    (hleft : left <:+ (s.takeLine line).1) : (s'.takeLine line).1 = left := by
  cases h with
  | asked => exact Server.takeLine_leave hleft
  | answered =>
      refine Server.takeLine_leave ?_
      rw [Server.takeLine, Server.lines_handle]
      exact hleft

theorem Stage.mem_given (h : Stage s conn line r left bs given s') {reply : List UInt8}
    (hreply : reply ∈ given) : reply = Wire.encodeOutcome (s.handle conn r).1 := by
  cases h with
  | asked => cases hreply
  | answered => exact List.mem_singleton.mp hreply

theorem Calling.takeLine (h : d.Calling s conn line r ms waiting left) :
    (d.server.takeLine line).1 = left :=
  h.stage.takeLine ⟨_, h.noted⟩

theorem Calling.isOver (h : d.Calling s conn line r ms waiting left) : d.talk.isOver = false := by
  simp [Conversation.isOver, h.serving]

theorem Calling.length_left_le (hcarries : s.Carries conn line r)
    (h : d.Calling s conn line r ms waiting left) : ∀ n ∈ left, n.encode.length ≤ maxFrame :=
  fun n hn => hcarries.notes n (h.noted ▸ List.mem_append_right _ hn)

theorem Calling.arrive (h : d.Calling s conn line r ms waiting left) (n : Nat) :
    (d.step (.arrive n)).Calling s conn line r ms waiting left := by
  refine ⟨h.connection, h.linked, h.serving, h.listening, h.sent, h.backlog, h.noted, ?_⟩
  have hbytes : (d.step (.arrive n)).talk.incoming ++ (d.step (.arrive n)).coming =
      d.talk.incoming ++ d.coming := by
    simp [step, Conversation.receive]
  rw [hbytes]
  exact h.stage

/-- A frame that has arrived is that of the request, and it is handed to the server. -/
theorem Calling.step_read (hcarries : s.Carries conn line r)
    (h : d.Calling s conn line r ms waiting left) (hframe : d.talk.hasFrame) :
    d.coming = [] ∧ d.talk.incoming ≠ [] ∧ replies ms ++ waiting = [] ∧ d.step .read = { d with
      server := (s.handle conn r).2.leave line left
      talk := { d.talk with
        incoming := []
        replies := [replyMessage (Wire.encodeOutcome (s.handle conn r).1)] }
      asked := d.asked ++ [⟨r.encode s.token, d.server⟩] } := by
  have hstage := h.stage
  have hlen := length_encode_le hcarries.token hcarries.request
  obtain ⟨bs, hbytes⟩ : ∃ bs, bs = d.talk.incoming ++ d.coming := ⟨_, rfl⟩
  obtain ⟨given, hgiven⟩ : ∃ given, given = replies ms ++ waiting := ⟨_, rfl⟩
  obtain ⟨s', hserver⟩ : ∃ s', s' = d.server := ⟨_, rfl⟩
  rw [← hbytes, ← hgiven, ← hserver] at hstage
  cases hstage with
  | answered =>
      have hnone : ∀ m ∈ ([] : List (List UInt8)), m.length ≤ maxFrame := List.forall_mem_nil _
      obtain ⟨message, ms, rest, hcons, -⟩ :=
        Conversation.arrived_frame hnone hbytes.symm hframe
      cases hcons
  | asked =>
      have hone : ∀ m ∈ [r.encode s.token], m.length ≤ maxFrame :=
        List.forall_mem_singleton.mpr hlen
      obtain ⟨message, ms', rest, hcons, hincoming, hrest⟩ := Conversation.arrived_frame hone
        (by rw [← hbytes, List.flatMap_singleton]) hframe
      cases hcons
      obtain ⟨rfl, hcoming⟩ := List.append_eq_nil_iff.mp hrest
      have hwaiting : waiting = [] := (List.append_eq_nil_iff.mp hgiven.symm).2
      have hreplies : d.talk.replies = [] := by rw [h.backlog, hwaiting, List.map_nil]
      refine ⟨hcoming, by rw [hincoming]; simp [Wire.framed_ne_nil], hgiven.symm, ?_⟩
      rw [step_read_of_request h.serving hlen hincoming (.inr hframe), h.connection, ← hserver,
        Server.dispatch_leave hcarries.token hcarries.request, hreplies, List.nil_append]

theorem Calling.read (hcarries : s.Carries conn line r)
    (h : d.Calling s conn line r ms waiting left) :
    ∃ waiting, (d.step .read).Calling s conn line r ms waiting left := by
  by_cases hframe : d.talk.hasFrame
  · obtain ⟨hcoming, -, hgiven, hstep⟩ := h.step_read hcarries hframe
    have hreplies : replies ms = [] := (List.append_eq_nil_iff.mp hgiven).1
    rw [hstep]
    refine ⟨[Wire.encodeOutcome (s.handle conn r).1], h.connection, h.linked, h.serving,
      h.listening, h.sent, rfl, h.noted, ?_⟩
    rw [hcoming, hreplies]
    exact .answered
  · obtain ⟨hrequest, hread⟩ := Conversation.readStep_of_idle (s := d.server)
      (.inr ⟨by simp [h.listening], hframe⟩)
    refine ⟨waiting, ?_⟩
    simpa [step, put, hrequest, hread] using h

/-- A frame is begun, of the reply or of a notification on the line. -/
theorem Calling.begins (h : d.Calling s conn line r ms waiting left) {m : ServerMessage}
    {rest : List (List UInt8)} (hpending : d.talk.pending = [])
    (hlen : m.encode.length ≤ maxFrame) (hwaiting : waiting = m.response?.toList ++ rest)
    (hleft : left = m.note?.toList ++ after)
    (hbegins : Conversation.Begins (d.server.leave line after)
      { d.talk with replies := rest.map replyMessage } m.encode s' c') :
    (d.put (s', c')).Calling s conn line r (ms ++ [m]) rest after := by
  have hsent := h.sent
  have hnotes := h.noted
  have hstage := h.stage.leave after
  rw [hpending, List.append_nil] at hsent
  rw [hleft, ← List.append_assoc] at hnotes
  rw [hwaiting, ← List.append_assoc] at hstage
  cases hbegins with
  | fits hlen =>
      refine ⟨h.connection, h.linked, h.serving, h.listening, by simp [put, hsent], rfl, ?_, ?_⟩
      · rw [← hnotes, Wire.notes_append]
        cases m <;> rfl
      · rw [Wire.replies_append]
        cases m <;> exact hstage
  | refused hlong => exact absurd hlen (Nat.not_le.mpr hlong)

theorem Calling.writes (hcarries : s.Carries conn line r)
    (h : d.Calling s conn line r ms waiting left)
    (hwrites : Conversation.Writes d.server d.talk s' c') :
    ∃ ms waiting left, (d.put (s', c')).Calling s conn line r ms waiting left := by
  cases hwrites with
  | still => exact ⟨ms, waiting, left, h⟩
  | part n hopen =>
      refine ⟨ms, waiting, left, h.connection, h.linked, h.serving, h.listening, ?_, h.backlog,
        h.noted, h.stage⟩
      rw [← h.sent]
      simp [put]
  | reply hopen hpending hreplies hbegins =>
      rw [h.backlog] at hreplies
      obtain ⟨response, rest, rfl, rfl, rfl⟩ := List.map_eq_cons_iff.mp hreplies
      have hresponse := h.stage.mem_given (List.mem_append_right _ List.mem_cons_self)
      rw [← h.stage.leave_self] at hbegins
      have hshort : (replyMessage response).length ≤ maxFrame := hresponse ▸ hcarries.reply
      exact ⟨_, _, _, h.begins (m := .reply response) hpending hshort rfl rfl hbegins⟩
  | @note n rest isOpen _ _ hserving hpending hline hbegins =>
      rw [h.linked] at hline hbegins
      have hleft : n :: rest = left := by rw [← h.takeLine, Server.takeLine_of_getElem? hline]
      have hkeep : { d.talk with replies := waiting.map replyMessage } = d.talk := by
        rw [← h.backlog]
      rw [Server.set_lines_eq_leave hline, ← hkeep] at hbegins
      have hshort := h.length_left_le hcarries n (hleft ▸ List.mem_cons_self)
      exact ⟨_, _, _, h.begins (m := .notification n) hpending hshort rfl hleft.symm hbegins⟩
  | done s' hclosing => cases h.serving.symm.trans hclosing

theorem Calling.step (hcarries : s.Carries conn line r)
    (h : d.Calling s conn line r ms waiting left) {t : DialogueStep} (ht : t.IsCalm) :
    ∃ ms waiting left, (d.step t).Calling s conn line r ms waiting left := by
  cases t with
  | arrive n => exact ⟨ms, waiting, left, h.arrive n⟩
  | read =>
      obtain ⟨waiting, h⟩ := h.read hcarries
      exact ⟨ms, waiting, left, h⟩
  | write n => exact h.writes hcarries (Conversation.writes_writeStep n _ _)
  | interject => exact h.writes hcarries (Conversation.writes_interject _ _)
  | finish | elsewhere s => exact ht.elim

theorem Calling.run (hcarries : s.Carries conn line r)
    (h : d.Calling s conn line r ms waiting left) {steps : List DialogueStep}
    (hsteps : ∀ t ∈ steps, t.IsCalm) :
    ∃ ms waiting left, (d.run steps).Calling s conn line r ms waiting left := by
  induction steps generalizing d ms waiting left with
  | nil => exact ⟨ms, waiting, left, h⟩
  | cons t steps ih =>
      rw [List.forall_mem_cons] at hsteps
      obtain ⟨ms, waiting, left, h⟩ := h.step hcarries hsteps.1
      exact ih h hsteps.2

/-- When all is done the request has been answered, and what waited on the line has been sent. -/
theorem Calling.of_isQuiet (hcarries : s.Carries conn line r)
    (h : d.Calling s conn line r ms waiting left) (hquiet : d.IsQuiet) :
    d.talk = { conn := conn, line := line, sent := stream ms } ∧
      replies ms = [Wire.encodeOutcome (s.handle conn r).1] ∧
      notes ms = (s.takeLine line).1 ∧ d.server = ((s.handle conn r).2.takeLine line).2 := by
  obtain ⟨hcoming, hread, hwrite⟩ := hquiet
  simp only [Conversation.canWrite, h.serving, Bool.or_eq_false_iff, Bool.not_eq_false',
    List.isEmpty_iff, h.linked] at hwrite
  obtain ⟨⟨hpending, hreplies⟩, hline⟩ := hwrite
  have hwaiting : waiting = [] := List.map_eq_nil_iff.mp (h.backlog ▸ hreplies)
  have hleft : left = [] := by
    rw [← h.takeLine]
    cases hbox : d.server.lines[line]? with
    | none => simp [Server.takeLine, Inboxes.take, hbox]
    | some box => simpa [Server.takeLine, Inboxes.take, hbox] using hline
  have hsent := h.sent
  have hnotes := h.noted
  have hstage := h.stage
  rw [hpending, List.append_nil] at hsent
  rw [hleft, List.append_nil] at hnotes
  rw [hcoming, hwaiting, hleft, List.append_nil, List.append_nil] at hstage
  generalize hbytes : d.talk.incoming = bs at hstage
  generalize hgiven : replies ms = given at hstage
  generalize hserver : d.server = s' at hstage
  cases hstage with
  | asked =>
      have hframe := Conversation.hasFrame_framed
        (length_encode_le hcarries.token hcarries.request) hbytes
      simp [Conversation.canRead, h.serving, hframe] at hread
  | answered =>
      have htalk : d.talk = ⟨d.talk.conn, d.talk.line, d.talk.incoming, d.talk.isEnded,
        d.talk.replies, d.talk.pending, d.talk.sent, d.talk.phase⟩ := rfl
      rw [h.connection, h.linked, hbytes, h.listening, hreplies, hpending, hsent,
        h.serving] at htalk
      exact ⟨htalk, rfl, hnotes, rfl⟩

/-- What is left to be done. To hand the request over costs less than the bytes that it takes away,
though a reply comes of it. -/
def chores (d : Dialogue) : Nat :=
  3 * min 1 (d.talk.incoming ++ d.coming).length + min 1 d.coming.length +
    2 * d.talk.replies.length + 2 * (d.server.takeLine d.talk.line).1.length +
    min 1 d.talk.pending.length

theorem Calling.exists_write (hcarries : s.Carries conn line r)
    (h : d.Calling s conn line r ms waiting left) (hwrite : d.talk.canWrite d.server) :
    ∃ t : DialogueStep, t.IsCalm ∧ (d.step t).chores < d.chores := by
  by_cases hpending : d.talk.pending = []
  · refine ⟨.write 0, trivial, ?_⟩
    cases hwaiting : waiting with
    | cons response rest =>
        have hreplies : d.talk.replies = replyMessage response :: rest.map replyMessage := by
          rw [h.backlog, hwaiting, List.map_cons]
        have hresponse := h.stage.mem_given
          (List.mem_append_right _ (hwaiting ▸ List.mem_cons_self))
        rw [step_write_of_reply 0 h.isOver hpending hreplies,
          Conversation.begin_eq (hresponse ▸ hcarries.reply)]
        simp only [chores, put, hpending, hreplies, List.length_nil, List.length_cons]
        omega
    | nil =>
        have hreplies : d.talk.replies = [] := by rw [h.backlog, hwaiting, List.map_nil]
        have hline : (d.server.lines[line]?).any fun box => !box.queue.isEmpty := by
          simpa [Conversation.canWrite, h.serving, hpending, hreplies, h.linked] using hwrite
        rcases hbox : d.server.lines[line]? with - | ⟨- | ⟨n, rest⟩, isOpen⟩
        · simp [hbox] at hline
        · simp [hbox] at hline
        · have hleft : n :: rest = left := by rw [← h.takeLine, Server.takeLine_of_getElem? hbox]
          have hshort := h.length_left_le hcarries n (hleft ▸ List.mem_cons_self)
          have hlines : ((d.server.leave line rest).takeLine line).1 = rest :=
            Server.takeLine_leave ⟨[n], by rw [h.takeLine, ← hleft]; rfl⟩
          have hstep := step_write_of_note 0 h.serving hpending hreplies (h.linked ▸ hbox)
          rw [h.linked, Server.set_lines_eq_leave hbox, Conversation.begin_eq hshort] at hstep
          rw [hstep]
          simp only [chores, put, h.linked, hlines, h.takeLine, ← hleft, hpending,
            List.length_nil, List.length_cons]
          omega
  · refine ⟨.write d.talk.pending.length, trivial, ?_⟩
    have hlength := List.length_pos_iff.mpr hpending
    rw [step_write_of_pending h.isOver hpending]
    simp only [chores, List.length_nil]
    omega

/-- As long as something is left to be done, there is a step that does some of it. -/
theorem Calling.exists_step (hcarries : s.Carries conn line r)
    (h : d.Calling s conn line r ms waiting left) (hquiet : ¬ d.IsQuiet) :
    ∃ t : DialogueStep, t.IsCalm ∧ (d.step t).chores < d.chores := by
  by_cases hcoming : d.coming = []
  · by_cases hframe : d.talk.hasFrame
    · obtain ⟨-, hincoming, -, hstep⟩ := h.step_read hcarries hframe
      have hanswered : Stage s conn line r left [] _ ((s.handle conn r).2.leave line left) :=
        .answered
      have hlines := hanswered.takeLine ⟨_, h.noted⟩
      have hlength := List.length_pos_iff.mpr hincoming
      refine ⟨.read, trivial, ?_⟩
      rw [hstep]
      simp only [chores, hcoming, h.linked, hlines, h.takeLine, List.append_nil, List.length_nil,
        List.length_cons]
      omega
    · have hread : d.talk.canRead = false := by
        simp [Conversation.canRead, h.serving, h.listening, hframe]
      have hwrite : d.talk.canWrite d.server := by
        by_contra hwrite
        exact hquiet ⟨hcoming, hread, Bool.eq_false_iff.mpr hwrite⟩
      exact h.exists_write hcarries hwrite
  · refine ⟨.arrive d.coming.length, trivial, ?_⟩
    have hlength := List.length_pos_iff.mpr hcoming
    simp only [chores, Dialogue.step, Conversation.receive, List.take_length, List.drop_length,
      List.append_nil, List.length_nil]
    omega

/-- A call that is left to itself comes to rest. -/
theorem Calling.exists_isQuiet (hcarries : s.Carries conn line r)
    (h : d.Calling s conn line r ms waiting left) :
    ∃ more : List DialogueStep, (∀ t ∈ more, t.IsCalm) ∧ (d.run more).IsQuiet := by
  induction hn : d.chores using Nat.strongRecOn generalizing d ms waiting left with
  | ind n ih =>
      by_cases hquiet : d.IsQuiet
      · exact ⟨[], List.forall_mem_nil _, hquiet⟩
      · obtain ⟨t, hcalm, hless⟩ := h.exists_step hcarries hquiet
        obtain ⟨ms, waiting, left, h'⟩ := h.step hcarries hcalm
        rw [hn] at hless
        obtain ⟨more, hmore, hquiet⟩ := ih (d.step t).chores hless h' rfl
        exact ⟨t :: more, List.forall_mem_cons.mpr ⟨hcalm, hmore⟩, hquiet⟩

theorem Calling.length_le (hcarries : s.Carries conn line r)
    (h : d.Calling s conn line r ms waiting left) : ∀ m ∈ ms, m.encode.length ≤ maxFrame := by
  intro m hm
  cases m with
  | reply response =>
      have hresponse := h.stage.mem_given
        (List.mem_append_left _ (List.mem_filterMap.mpr ⟨_, hm, rfl⟩))
      rw [ServerMessage.encode, hresponse]
      exact hcarries.reply
  | notification n =>
      have hnote : n ∈ notes ms := List.mem_filterMap.mpr ⟨_, hm, rfl⟩
      exact hcarries.notes n (h.noted ▸ List.mem_append_left _ hnote)

end Calm

end Dialogue

namespace Circuit
variable {c : Circuit} {unread : List Notification} {d : Dialogue} {ms : List ServerMessage}
  {waiting : List (List UInt8)}

/-- A call under way: the client has written the request, and nothing of it has arrived. -/
def asking (s : Server) (c : Circuit) (r : Request) : Dialogue where
  server := s
  talk := c.conversation
  coming := (c.client.send r).2.outgoing

/-- The circuit when the client has been sent what the stream has taken in the dialogue. -/
def hearing (c : Circuit) (d : Dialogue) : Circuit where
  conversation := { d.talk with sent := [] }
  client := { c.client with incoming := c.client.incoming ++ d.talk.sent }

theorem Rests.asking_eq (h : c.Rests unread)
    (hlen : (r.encode c.client.token).length ≤ maxFrame) :
    c.asking s r = ⟨s, { conn := c.conversation.conn, line := c.conversation.line },
      [r.encode c.client.token].flatMap framed, []⟩ := by
  have hcoming : (c.client.send r).2.outgoing = [r.encode c.client.token].flatMap framed := by
    unfold Wire.Client.send
    rw [Wire.frame_eq_ok hlen]
    simp [h.outgoing]
  rw [asking, h.conversation, hcoming]

theorem Rests.calling (h : c.Rests unread) (htoken : c.client.token = s.token)
    (hlen : (r.encode s.token).length ≤ maxFrame) :
    (c.asking s r).Calling s c.conversation.conn c.conversation.line r [] []
      (s.takeLine c.conversation.line).1 := by
  rw [← htoken] at hlen
  rw [h.asking_eq hlen, htoken]
  refine ⟨rfl, rfl, rfl, rfl, rfl, rfl, rfl, ?_⟩
  rw [List.flatMap_singleton, List.nil_append]
  have hasked : Dialogue.Stage s c.conversation.conn c.conversation.line r
      (s.takeLine c.conversation.line).1 (framed (r.encode s.token)) [] _ := .asked
  rw [Server.leave_takeLine] at hasked
  exact hasked

/-- A reply that the client finds is one of those that were begun. -/
theorem Rests.mem_replies (h : c.Rests unread) (hunread : ∀ n ∈ unread, n.Fits)
    (hms : ∀ m ∈ ms, m.encode.length ≤ maxFrame)
    (hsent : d.talk.sent ++ d.talk.pending = stream ms) {response : List UInt8}
    (hreply : (c.hearing d).client.nextReply.1 = .ok response) : response ∈ replies ms := by
  have hitems : ∀ m ∈ unread.map .notification ++ ms, m.encode.length ≤ maxFrame := by
    refine List.forall_mem_append.mpr ⟨fun m hm => ?_, hms⟩
    obtain ⟨n, hn, rfl⟩ := List.mem_map.mp hm
    exact Wire.Notification.length_encode_le (hunread n hn)
  have hbytes : (c.hearing d).client.incoming ++ d.talk.pending =
      stream (unread.map .notification ++ ms) := by
    rw [Wire.stream_append, Wire.stream_map_notification, ← hsent, hearing]
    simp [h.incoming]
  obtain ⟨ns, later, rest, hcons, -⟩ :=
    Wire.Client.nextReply_of_growing hitems hbytes (Prod.ext hreply rfl)
  have hreplies := congrArg replies hcons
  simp only [Wire.replies_append, Wire.replies_map_notification, Wire.replies_reply,
    List.nil_append] at hreplies
  rw [hreplies]
  exact List.mem_cons_self

/-- Whatever happens elsewhere, a reply that the client finds is what the handler answered when the
request was dispatched. -/
theorem Rests.reply_of_any (h : c.Rests unread) (hunread : ∀ n ∈ unread, n.Fits)
    (htoken : c.client.token = s.token) (hs : TextFits s.token) (hr : r.Fits)
    {steps : List DialogueStep} (hsteps : (c.asking s r).Unbroken steps) {response : List UInt8}
    (hreply : (c.hearing ((c.asking s r).run steps)).client.nextReply.1 = .ok response) :
    ∃ s', ((c.asking s r).run steps).asked = [⟨r.encode s.token, s'⟩] ∧
      (s'.token = s.token →
        response = Wire.encodeOutcome (s'.handle c.conversation.conn r).1) := by
  have hlen := length_encode_le hs hr
  have hasking := h.asking_eq (s := s) (htoken ▸ hlen)
  rw [htoken] at hasking
  rw [hasking] at hsteps hreply ⊢
  obtain ⟨written, begun, waiting, left, hsound⟩ :=
    (Dialogue.sound_of_sent s _ _ [r.encode s.token]).run (List.forall_mem_singleton.mpr hlen)
      hsteps
  obtain ⟨part, hsent, hpart⟩ := hsound.sent
  have hmem := h.mem_replies hunread hsound.short
    (by rw [hsent, List.append_assoc, hpart, Wire.stream_append]) hreply
  obtain ⟨q, hq, hresponse⟩ := List.mem_map.mp (hsound.answers_first.subset hmem)
  have hasked := hsound.asked
  obtain ⟨message, s'⟩ := q
  cases hlist : Dialogue.asked _ with
  | nil =>
      rw [hlist] at hq
      cases hq
  | cons first others =>
      rw [hlist] at hq hasked
      obtain ⟨hmessage, hothers⟩ := List.cons.inj hasked
      obtain ⟨hothers, -⟩ := List.append_eq_nil_iff.mp hothers.symm
      rw [List.map_eq_nil_iff] at hothers
      subst hothers
      cases List.mem_singleton.mp hq
      refine ⟨s', by rw [hmessage], fun hsame => ?_⟩
      have hdispatch := s'.dispatch_encode c.conversation.conn (hsame ▸ hs) hr
      rw [hsame, hmessage] at hdispatch
      rw [← hresponse, Inquiry.reply, hdispatch]

section Answers
variable (hanswer : ∀ response, (s.handle c.conversation.conn r).1 = .ok response →
  response.Fits ∧ (replyMessage response.encode).length ≤ maxFrame)
include hanswer

theorem Rests.receive_of_calling (h : c.Rests unread) (hunread : ∀ n ∈ unread, n.Fits)
    (hcarries : s.Carries c.conversation.conn c.conversation.line r)
    (hcalling : d.Calling s c.conversation.conn c.conversation.line r ms waiting left)
    {response : List UInt8} (hreply : (c.hearing d).client.nextReply.1 = .ok response) :
    ((c.hearing d).client.receive r.kind).1 =
      (s.handle c.conversation.conn r).1.mapError .status := by
  have hmem := h.mem_replies hunread (hcalling.length_le hcarries) hcalling.sent hreply
  have hresponse := hcalling.stage.mem_given (List.mem_append_left _ hmem)
  unfold Wire.Client.receive
  rw [show (c.hearing d).client.nextReply = (.ok response, _) from Prod.ext hreply rfl, hresponse]
  exact Wire.decode_encodeOutcome (s.isOutcome_handle c.conversation.conn r)
    (Server.fits_of_answer hanswer)

/-- When the call has come to rest the client has its answer, and can call again. -/
theorem Rests.receive_of_isQuiet (h : c.Rests unread) (hunread : ∀ n ∈ unread, n.Fits)
    (hcarries : s.Carries c.conversation.conn c.conversation.line r)
    (hcalling : d.Calling s c.conversation.conn c.conversation.line r ms waiting left)
    (hquiet : d.IsQuiet) (hline : ∀ n ∈ (s.takeLine c.conversation.line).1, n.Fits) :
    ∃ (early late : List Notification) (client : Wire.Client),
      (s.takeLine c.conversation.line).1 = early ++ late ∧
      (c.hearing d).client.receive r.kind =
        ((s.handle c.conversation.conn r).1.mapError .status, client) ∧
      client.queue = c.client.queue ++ (unread ++ early) ∧
      Rests { c.hearing d with client := client } late := by
  obtain ⟨htalk, hreplies, hnotes, -⟩ := hcalling.of_isQuiet hcarries hquiet
  obtain ⟨early, response, others, rfl⟩ := Wire.split_reply (by rw [hreplies]; simp)
  rw [Wire.replies_append, Wire.replies_map_notification, Wire.replies_reply, List.nil_append,
    List.cons.injEq] at hreplies
  obtain ⟨rfl, hothers⟩ := hreplies
  rw [Wire.notes_append, Wire.notes_map_notification, Wire.notes_reply] at hnotes
  have hincoming : (c.hearing d).client.incoming =
      (unread ++ early).flatMap (fun n => framed n.encode) ++
        (framed (replyMessage (Wire.encodeOutcome (s.handle c.conversation.conn r).1)) ++
          (notes others).flatMap fun n => framed n.encode) := by
    rw [hearing, htalk, Wire.stream_append, Wire.stream_map_notification, Wire.stream_cons,
      Wire.eq_map_of_replies_nil hothers, Wire.stream_map_notification]
    simp [h.incoming, ServerMessage.encode]
  have hearly : ∀ n ∈ unread ++ early, n.Fits :=
    List.forall_mem_append.mpr
      ⟨hunread, fun n hn => hline n (hnotes ▸ List.mem_append_left _ hn)⟩
  have hreceive := receive_of_notes (c.hearing d).client hearly
    (s.isOutcome_handle c.conversation.conn r) (Server.fits_of_answer hanswer) hcarries.reply
    hincoming
  refine ⟨early, notes others, _, hnotes.symm, hreceive, rfl, ⟨?_, h.outgoing, rfl⟩⟩
  simp [hearing, htalk]

end Answers

end Circuit

/-- Calls are transparent: the client gets the very response or the very status that the handler
answers with, and the server is left as the handler leaves it. Only what waited on the line of
the connection has gone out to the client, where it can be read like all notifications before.

The order in which bytes arrive, frames are begun and parts of them are written does not matter. In
whatever order, and whatever happens elsewhere, a reply that the client finds is what the handler
answered when the request was dispatched. If nothing happens elsewhere the call always comes to
rest, and then the server is as above, and the client has its answer if it can read the
notifications, of which some may have gone out before it. -/
theorem call_transparent {c : Circuit} (broken : String) {unread : List Wire.Notification}
    (h : c.Rests unread) (hunread : ∀ n ∈ unread, n.Fits)
    (hline : ∀ n ∈ (s.takeLine c.conversation.line).1, n.encode.length ≤ maxFrame)
    (htoken : c.client.token = s.token) (hs : TextFits s.token) (hr : r.Fits)
    (hanswer : ∀ response, (s.handle c.conversation.conn r).1 = .ok response →
      response.Fits ∧ (replyMessage response.encode).length ≤ maxFrame) :
    (∀ response, (c.call broken s r).1 = .ok response ↔
      (s.handle c.conversation.conn r).1 = .ok response) ∧
    (∀ status, (c.call broken s r).1 = .error (.status status) ↔
      (s.handle c.conversation.conn r).1 = .error status) ∧
    (c.call broken s r).2.1 =
      ((s.handle c.conversation.conn r).2.takeLine c.conversation.line).2 ∧
    ((s.takeLine c.conversation.line).1 = [] →
      (c.call broken s r).2.1 = (s.handle c.conversation.conn r).2) ∧
    (c.call broken s r).2.2.Rests (s.takeLine c.conversation.line).1 ∧
    (c.call broken s r).2.2.client.queue = c.client.queue ++ unread ∧
    (∀ response, (s.handle c.conversation.conn r).1 = .ok response →
      response.Answers r.kind) ∧
    (∀ steps, (c.asking s r).Unbroken steps →
      let d := (c.asking s r).run steps
      ∀ response, (c.hearing d).client.nextReply.1 = .ok response →
        ∃ s', d.asked = [⟨r.encode s.token, s'⟩] ∧ (s'.token = s.token →
          response = Wire.encodeOutcome (s'.handle c.conversation.conn r).1)) ∧
    (∀ steps, (∀ t ∈ steps, t.IsCalm) →
      let d := (c.asking s r).run steps
      (∀ response, (c.hearing d).client.nextReply.1 = .ok response →
        ((c.hearing d).client.receive r.kind).1 =
          (s.handle c.conversation.conn r).1.mapError .status) ∧
      (∃ more : List DialogueStep, (∀ t ∈ more, t.IsCalm) ∧ (d.run more).IsQuiet) ∧
      (d.IsQuiet →
        d.server = ((s.handle c.conversation.conn r).2.takeLine c.conversation.line).2 ∧
        ((∀ n ∈ (s.takeLine c.conversation.line).1, n.Fits) →
          ∃ (early late : List Wire.Notification) (client : Wire.Client),
            (s.takeLine c.conversation.line).1 = early ++ late ∧
            (c.hearing d).client.receive r.kind =
              ((s.handle c.conversation.conn r).1.mapError .status, client) ∧
            client.queue = c.client.queue ++ (unread ++ early) ∧
            Circuit.Rests { c.hearing d with client := client } late))) := by
  have hcall := Circuit.call_of_rests broken h hunread htoken hs hr hanswer hline
  have hlines := s.lines_handle c.conversation.conn r
  have houtcome := s.isOutcome_handle c.conversation.conn r
  have hcarries : s.Carries c.conversation.conn c.conversation.line r :=
    ⟨hs, hr, Server.length_reply_le hanswer, hline⟩
  rw [hcall]
  refine ⟨fun response => ?_, fun status => ?_, rfl, fun hempty => ?_, ⟨?_, ?_, rfl⟩, rfl, ?_,
    fun steps hsteps => ?_, fun steps hsteps => ?_⟩
  · cases (s.handle c.conversation.conn r).1 <;> simp [Except.mapError]
  · cases (s.handle c.conversation.conn r).1 <;> simp [Except.mapError]
  · refine Server.takeLine_of_empty ?_
    rw [Server.takeLine, hlines]
    exact hempty
  · exact h.conversation
  · exact h.outgoing
  · intro response ho
    rw [ho] at houtcome
    exact houtcome
  · intro d response hreply
    exact h.reply_of_any hunread htoken hs hr hsteps hreply
  · intro d
    obtain ⟨ms, waiting, left, hcalling⟩ :=
      (h.calling (s := s) htoken (length_encode_le hs hr)).run hcarries hsteps
    exact ⟨fun response hreply => h.receive_of_calling hanswer hunread hcarries hcalling hreply,
      hcalling.exists_isQuiet hcarries, fun hquiet =>
        ⟨(hcalling.of_isQuiet hcarries hquiet).2.2.2,
          h.receive_of_isQuiet hanswer hunread hcarries hcalling hquiet⟩⟩

/-- A notification that arrived before does not get between a request and its answer. -/
theorem ringer_asked_behind_note :
    let note : Wire.Notification := .parameter ⟨none, "route", "", "auto"⟩
    let c : Circuit := {
      conversation := { conn := 1, line := 0 }
      client := { token := "audiod.IAudioProcess", incoming := framed note.encode } }
    c.Rests [note] ∧ note.Fits ∧
    (c.call "broken pipe" {} .ringer).1 = .ok (.ringerMode .normal) ∧
    (c.call "broken pipe" {} .ringer).2.2.client.queue = [note] := by
  intro note c
  have hrests : c.Rests [note] := ⟨rfl, rfl, by simp [c]⟩
  have hnote : note.Fits := by
    refine ⟨?_, ?_, ?_, ?_⟩ <;>
      · unfold TextFits
        decide
  have htoken : TextFits ({} : Server).token := by
    unfold TextFits
    decide
  have hfits : Request.ringer.Fits := by
    intro t ht
    cases ht
  have hall := call_transparent (s := {}) (r := .ringer) "broken pipe" hrests
    (by simpa using hnote) (by intro n hn; cases hn) rfl htoken hfits
    (by
      intro response ho
      cases ho
      exact ⟨trivial, by decide⟩)
  exact ⟨hrests, hnote, (hall.1 _).mpr rfl, hall.2.2.2.2.2.1⟩

end Patchbay
