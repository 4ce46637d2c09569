import Patchbay.Proofs.Wire.Frames
import Patchbay.Server.Conversation

/-!
# What a conversation does with one request

A conversation that waits for its client and gets the frame of one request dispatches it, writes
the reply and then the notifications that wait on its line, each as a frame, and waits again.
-/
namespace Patchbay
open Wire (framed replyMessage maxFrame)

variable {s s' : Server} {c : Conversation} {message reply : List UInt8} {fuel : Nat}
variable {replies : List (List UInt8)} {notes : List Wire.Notification} {isOpen : Bool}

namespace Conversation

/-- All that the client has sent is read, and it may send more. -/
structure IsListening (c : Conversation) : Prop where
  phase : c.phase = .serving
  isEnded : c.isEnded = false
  incoming : c.incoming = []

theorem IsListening.canRead (h : c.IsListening) : c.canRead = false := by
  simp [Conversation.canRead, h.phase, h.isEnded, hasFrame, h.incoming]

theorem IsListening.isOver (h : c.IsListening) : c.isOver = false := by
  simp [Conversation.isOver, h.phase]

theorem begin_eq (h : message.length ≤ maxFrame) :
    begin s c message = (s, { c with pending := framed message }) := by
  unfold begin
  rw [Wire.frame_eq_ok h]

theorem run_write (h : c.IsListening) (hwrite : c.canWrite s = true) :
    run (fuel + 1) s c =
      run fuel (writeStep c.pending.length s c).1 (writeStep c.pending.length s c).2 := by
  rw [run, h.canRead, if_neg Bool.false_ne_true, if_pos hwrite]

theorem run_pending (h : c.IsListening) (hpending : c.pending ≠ []) :
    run (fuel + 1) s c = run fuel s { c with sent := c.sent ++ c.pending, pending := [] } := by
  have hwrite : c.canWrite s = true := by simp [canWrite, h.phase, hpending]
  obtain ⟨b, bs, hbs⟩ := List.exists_cons_of_ne_nil hpending
  have hstep : writeStep c.pending.length s c =
      (s, { c with sent := c.sent ++ c.pending, pending := [] }) := by
    simp [writeStep, h.isOver, hbs]
  rw [run_write h hwrite, hstep]

theorem run_reply (h : c.IsListening) (hpending : c.pending = [])
    (hreplies : c.replies = reply :: replies) (hlen : reply.length ≤ maxFrame) :
    run (fuel + 2) s c =
      run fuel s { c with replies := replies, sent := c.sent ++ framed reply } := by
  have hwrite : c.canWrite s = true := by simp [canWrite, h.phase, hreplies]
  have hstep : writeStep c.pending.length s c =
      (s, { c with replies := replies, pending := framed reply }) := by
    simp [writeStep, h.isOver, hpending, hreplies, begin_eq hlen]
  rw [run_write h hwrite, hstep]
  have hlistening : IsListening { c with replies := replies, pending := framed reply } :=
    ⟨h.phase, h.isEnded, h.incoming⟩
  rw [run_pending hlistening Wire.framed_ne_nil, ← hpending]

/-- A notification that waits on the line is written if no reply waits. -/
theorem run_note {n : Wire.Notification} (h : c.IsListening) (hpending : c.pending = [])
    (hreplies : c.replies = []) (hline : s.lines[c.line]? = some ⟨n :: notes, isOpen⟩)
    (hlen : n.encode.length ≤ maxFrame) :
    run (fuel + 2) s c = run fuel { s with lines := s.lines.set c.line ⟨notes, isOpen⟩ }
      { c with sent := c.sent ++ framed n.encode } := by
  have hwrite : c.canWrite s = true := by simp [canWrite, h.phase, hline]
  have hstep : writeStep c.pending.length s c =
      ({ s with lines := s.lines.set c.line ⟨notes, isOpen⟩ },
        { c with pending := framed n.encode }) := by
    simp [writeStep, h.isOver, hpending, hreplies, h.phase, hline, begin_eq hlen]
  rw [run_write h hwrite, hstep]
  have hlistening : IsListening { c with pending := framed n.encode } :=
    ⟨h.phase, h.isEnded, h.incoming⟩
  rw [run_pending hlistening Wire.framed_ne_nil, ← hpending]

/-- With nothing to read and nothing to write, nothing happens. -/
theorem run_done (h : c.IsListening) (hwrite : c.canWrite s = false) : run fuel s c = (s, c) := by
  cases fuel with
  | zero => rfl
  | succ fuel => 
    rw [run, h.canRead, hwrite, if_neg Bool.false_ne_true, if_neg Bool.false_ne_true]

theorem run_notes (h : c.IsListening) (hpending : c.pending = []) (hreplies : c.replies = [])
    (hline : s.lines[c.line]? = some ⟨notes, isOpen⟩)
    (hlen : ∀ n ∈ notes, n.encode.length ≤ maxFrame) (hfuel : 2 * notes.length ≤ fuel) :
    run fuel s c = ({ s with lines := s.lines.set c.line ⟨[], isOpen⟩ },
      { c with sent := c.sent ++ notes.flatMap fun n => framed n.encode }) := by
  induction notes generalizing s c fuel with
  | nil =>
      have hwrite : c.canWrite s = false := by
        simp [canWrite, h.phase, hpending, hreplies, hline]
      rw [run_done h hwrite, List.flatMap_nil, List.append_nil]
      obtain ⟨hlt, hget⟩ := List.getElem?_eq_some_iff.mp hline
      have hset : s.lines.set c.line ⟨[], isOpen⟩ = s.lines := by
        rw [← hget, List.set_getElem_self]
      rw [hset]
  | cons n notes ih =>
      rw [List.forall_mem_cons] at hlen
      rw [List.length_cons] at hfuel
      obtain ⟨fuel, rfl⟩ : ∃ k, fuel = k + 2 := ⟨fuel - 2, by omega⟩
      have hlt := (List.getElem?_eq_some_iff.mp hline).1
      have hfuel : 2 * notes.length ≤ fuel := by omega
      have hrest := ih (s := { s with lines := s.lines.set c.line ⟨notes, isOpen⟩ })
        (c := { c with sent := c.sent ++ framed n.encode }) ⟨h.phase, h.isEnded, h.incoming⟩
        hpending hreplies (List.getElem?_set_self hlt) hlen.2 hfuel
      rw [run_note h hpending hreplies hline hlen.1, hrest, List.flatMap_cons]
      simp only [List.set_set, List.append_assoc]

/-- What waits on the line of the conversation is taken off it and written. -/
theorem run_line (h : c.IsListening) (hpending : c.pending = []) (hreplies : c.replies = [])
    (hlen : ∀ n ∈ (s.takeLine c.line).1, n.encode.length ≤ maxFrame)
    (hfuel : 2 * (s.takeLine c.line).1.length ≤ fuel) :
    run fuel s c = ((s.takeLine c.line).2,
      { c with sent := c.sent ++ (s.takeLine c.line).1.flatMap fun n => framed n.encode }) := by
  cases hline : s.lines[c.line]? with
  | none =>
      have hwrite : c.canWrite s = false := by
        simp [canWrite, h.phase, hpending, hreplies, hline]
      have htake : s.takeLine c.line = ([], s) := by
        simp [Server.takeLine, Inboxes.take, hline,
          List.modify_eq_self (List.getElem?_eq_none_iff.mp hline)]
      rw [run_done h hwrite, htake, List.flatMap_nil, List.append_nil]
  | some box =>
      obtain ⟨notes, isOpen⟩ := box
      have htake : s.takeLine c.line =
          (notes, { s with lines := s.lines.set c.line ⟨[], isOpen⟩ }) := by
        have : Inhabited (Inbox Wire.Notification) := ⟨⟨[], true⟩⟩
        simp [Server.takeLine, Inboxes.take, hline, List.modify_eq_set]
      rw [htake] at hlen hfuel ⊢
      exact run_notes h hpending hreplies hline hlen hfuel

theorem hasFrame_framed (hlen : message.length ≤ maxFrame)
    (hincoming : c.incoming = framed message) : c.hasFrame = true := by
  have hbs : c.incoming = framed message ++ [] := by rw [hincoming, List.append_nil]
  have hsize : c.incoming.length = 4 + message.length := by
    rw [hincoming, framed, List.length_append, Wire.length_write32]
  simp only [hasFrame, hsize]
  rw [hbs, Wire.take_four_framed, Wire.value_length hlen]
  simp

variable {conn line : Nat} {sent : List UInt8}

theorem length_takeLine (s : Server) (line : Nat) :
    (s.takeLine line).1.length = ((s.lines[line]?).map (·.queue.length)).getD 0 := by
  unfold Server.takeLine Inboxes.take
  cases s.lines[line]? <;> rfl

theorem settle_of_notes (conn line : Nat) (sent : List UInt8)
    (hnotes : ∀ n ∈ (s.takeLine line).1, n.encode.length ≤ maxFrame) :
    settle s { conn := conn, line := line, sent := sent } = ((s.takeLine line).2,
      { conn := conn, line := line,
        sent := sent ++ (s.takeLine line).1.flatMap fun n => framed n.encode }) := by
  have hfuel : 2 * (s.takeLine line).1.length ≤
      enough s { conn := conn, line := line, sent := sent } := by
    simp only [enough, length_takeLine]
    omega
  exact run_line ⟨rfl, rfl, rfl⟩ rfl rfl hnotes hfuel

/-- Reading the frame of a request hands it to the server and leaves the reply to be written. -/
theorem run_request (hlen : message.length ≤ maxFrame)
    (hdispatch : s.dispatch conn message = (reply, s')) :
    run (fuel + 1) s { conn := conn, line := line, incoming := framed message, sent := sent } =
      run fuel s'
        { conn := conn, line := line, replies := [replyMessage reply], sent := sent } := by
  have hframe : hasFrame { conn := conn, line := line, incoming := framed message, sent := sent } =
    true := hasFrame_framed hlen rfl
  have hnext : Wire.nextFrame (framed message) = (.ok (some message), []) := by
    rw [← List.append_nil (framed message)]
    exact Wire.nextFrame_framed hlen
  have hstep : readStep s
      { conn := conn, line := line, incoming := framed message, sent := sent } =
      (s', { conn := conn, line := line, replies := [replyMessage reply], sent := sent }) := by
    simp [readStep, hframe, hnext, hdispatch]
  rw [run, if_pos (by simpa [canRead] using hframe), hstep]

/-- A request is answered, and what waits on the line follows the reply. -/
theorem settle_of_request (line : Nat) (sent : List UInt8) (hlen : message.length ≤ maxFrame)
    (hdispatch : s.dispatch conn message = (reply, s')) (hlines : s'.lines = s.lines)
    (hreply : (replyMessage reply).length ≤ maxFrame)
    (hnotes : ∀ n ∈ (s.takeLine line).1, n.encode.length ≤ maxFrame) :
    settle s { conn := conn, line := line, incoming := framed message, sent := sent } =
      ((s'.takeLine line).2,
        { conn := conn, line := line, sent := sent ++ framed (replyMessage reply) ++
          (s.takeLine line).1.flatMap fun n => framed n.encode }) := by
  have htaken : (s'.takeLine line).1 = (s.takeLine line).1 := by
    rw [Server.takeLine, Server.takeLine, hlines]
  obtain ⟨fuel, hfuel, henough⟩ : ∃ fuel, 2 * (s'.takeLine line).1.length ≤ fuel ∧
      enough s { conn := conn, line := line, incoming := framed message, sent := sent } =
        fuel + 2 + 1 := by
    refine ⟨3 * (framed message).length + 2 * (s.takeLine line).1.length + 5, ?_, ?_⟩
    · rw [htaken]
      omega
    · simp only [enough, length_takeLine, List.length_nil]
      omega
  rw [settle, henough, run_request hlen hdispatch, run_reply ⟨rfl, rfl, rfl⟩ rfl rfl hreply,
    run_line ⟨rfl, rfl, rfl⟩ rfl rfl (by rw [htaken]; exact hnotes) hfuel, htaken]

end Conversation
end Patchbay
