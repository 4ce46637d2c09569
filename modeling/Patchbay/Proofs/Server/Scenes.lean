import Patchbay.Proofs.Server.Dialogues
import Patchbay.Proofs.Server.Pipes
import Patchbay.Proofs.Wire.Arrivals
import Patchbay.Wire.ProcessClient

/-!
# A client and its surroundings

A client of one stream, the server's end of its connection, the server, and all that can happen
between two steps of the client: bytes go either way, requests are read and frames are written,
notifications are forwarded, and others use the server. The bytes on their way to the client are
those of whole messages, and what they tell, with what is still to be told, leads the follower of a
session to its device, until the session ends. When the connection is over, it has ended.
-/
namespace Patchbay
open Wire (ServerMessage Notification framed replyMessage replies notes stream maxFrame)

/-- A client, the stream it is attached to if there is one, the server's end of its connection and
the server. -/
structure Scene (μ : Type) where
  server : Server
  talk : Conversation
  client : Wire.Client
  attached : Option (Wire.ProcessClient μ) := none

/-- What can happen to a client that does nothing itself. -/
inductive Move where
  /-- Others use the server. What the connection itself does, and forwarding, are moves of their
  own. -/
  | elsewhere (t : ServerStep)
  /-- A forwarder passes on the first notification that waits. -/
  | pass (f : Forwarder)
  /-- Up to `n` bytes of the client reach the server. -/
  | carry (n : Nat)
  | read
  | write (n : Nat)
  /-- A notification is begun before the replies that wait. -/
  | interject
  /-- Up to `n` bytes of the server reach the client. -/
  | deliver (n : Nat)

namespace Scene
variable {μ : Type}

/-- A client with this token that has just connected. -/
def opening (s : Server) (conn : Nat) (token : String) : Scene μ :=
  let (s, talk) := Conversation.start s conn
  { server := s, talk := talk, client := { token := token } }

def put (x : Scene μ) (p : Server × Conversation) : Scene μ :=
  { x with server := p.1, talk := p.2 }

def move (x : Scene μ) : Move → Scene μ
  | .elsewhere t =>
    if t.spares x.talk.conn x.talk.line then { x with server := x.server.step t } else x
  | .pass f => if f ∈ x.server.forwarders then { x with server := x.server.pass f } else x
  | .carry n =>
    { x with
      talk := x.talk.receive (x.client.outgoing.take n)
      client := { x.client with outgoing := x.client.outgoing.drop n } }
  | .read => x.put (x.talk.readStep x.server)
  | .write n => x.put (x.talk.writeStep n x.server)
  | .interject => x.put (x.talk.interject x.server)
  | .deliver n =>
    { x with
      talk := { x.talk with sent := x.talk.sent.drop n }
      client := { x.client with incoming := x.client.incoming ++ x.talk.sent.take n } }

def moves (x : Scene μ) (ms : List Move) : Scene μ :=
  ms.foldl move x

/-- Of the client the bytes `asked` are still to be read by the server. To the client the messages
`items` are on their way. With the replies that wait at the server the client is to get the replies
`due`, unless the connection is over. -/
structure Sound (x : Scene μ) (asked : List UInt8) (due : List (List UInt8))
    (items : List ServerMessage) : Prop where
  listens : x.talk.phase ≠ .closing
  stays : x.talk.isEnded = false
  wired : x.server.Wired
  tied : x.talk.isOver = false → x.server.Tied x.talk.conn x.talk.line
  bytes : x.client.incoming ++ (x.talk.sent ++ x.talk.pending) = stream items
  fits : ∀ m ∈ items, m.encode.length ≤ maxFrame
  asked : x.talk.incoming ++ x.client.outgoing = asked
  due : ∃ waiting, (x.talk.isOver = false → x.talk.replies = waiting.map replyMessage) ∧
    replies items ++ waiting = due
  dated : x.talk.isOver = false → ∀ n ∈ x.client.queue ++ notes items, ∀ id,
    n.session? = some id → id.toNat < x.server.station.registry.nextId

/-- Who knows the device `d` of session `id` is led to its device by what the client keeps, what is
on its way and what waits at the server, until the session ends. The connection owns it and is not
over before. -/
def Follows (x : Scene μ) (items : List ServerMessage) (id box : Nat) (d : Device) : Prop :=
  x.server.station.registry.Ended id ∨
    x.talk.isOver = false ∧ id ∈ x.server.sessionsOf x.talk.conn ∧
      x.server.Leads x.talk.conn x.talk.line id box
        (Wire.leads (.ofNat id) d (x.client.queue ++ notes items))

/-- From `x` to `x'` the client stays attached as it is, and whoever is led goes on to be. -/
structure Onward (x : Scene μ) (items : List ServerMessage) (x' : Scene μ)
    (items' : List ServerMessage) : Prop where
  attached : x'.attached = x.attached
  follows : ∀ {id box d}, x.Follows items id box d → x'.Follows items' id box d

variable {x x' x'' : Scene μ} {asked message : List UInt8} {due : List (List UInt8)}
  {items items' items'' : List ServerMessage} {id box : Nat} {d : Device} {s' : Server}
  {c' : Conversation}

theorem Onward.refl (x : Scene μ) (items : List ServerMessage) : x.Onward items x items :=
  ⟨rfl, fun h => h⟩

theorem Onward.trans (h : x.Onward items x' items') (h' : x'.Onward items' x'' items'') :
    x.Onward items x'' items'' :=
  ⟨h'.attached.trans h.attached, fun hf => h'.follows (h.follows hf)⟩

/-- The server changes. As long as the connection is not over, it stays linked and all that leads
to it goes on to. -/
theorem Sound.steers (h : x.Sound asked due items) (hwired : s'.Wired) (hkeeps : x.server.Keeps s')
    (hsteers : x.talk.isOver = false → Server.Steers x.talk.conn x.talk.line x.server s') :
    ({ x with server := s' } : Scene μ).Sound asked due items ∧
      x.Onward items { x with server := s' } items := by
  refine ⟨⟨h.listens, h.stays, hwired, fun hopen => (hsteers hopen).tied (h.tied hopen), h.bytes,
    h.fits, h.asked, h.due, fun hopen n hn id hid => ?_⟩, rfl, fun hfollows => ?_⟩
  · exact Nat.lt_of_lt_of_le (h.dated hopen n hn id hid) (hsteers hopen).nextId
  · rcases hfollows with hended | ⟨hopen, howned, hleads⟩
    · exact .inl (hkeeps.ended _ hended)
    · rcases hkeeps.owned _ _ howned with howned | hended
      · exact .inr ⟨hopen, howned, (hsteers hopen).leads hleads⟩
      · exact .inl hended

theorem Sound.elsewhere (h : x.Sound asked due items) (t : ServerStep) :
    (x.move (.elsewhere t)).Sound asked due items ∧
      x.Onward items (x.move (.elsewhere t)) items := by
  simp only [move]
  split
  · rename_i ht
    exact h.steers (h.wired.step t) (h.wired.accounted.step t) fun hopen =>
      Server.steers_step h.wired (h.tied hopen) ht
  · exact ⟨h, .refl x items⟩

theorem Sound.pass (h : x.Sound asked due items) (f : Forwarder) :
    (x.move (.pass f)).Sound asked due items ∧ x.Onward items (x.move (.pass f)) items := by
  simp only [move]
  split
  · rename_i hf
    exact h.steers (h.wired.pass f) (h.wired.accounted.steady (x.server.steady_pass f)) fun hopen =>
      Server.steers_pass h.wired (h.tied hopen) hf
  · exact ⟨h, .refl x items⟩

theorem Sound.carry (h : x.Sound asked due items) (n : Nat) :
    (x.move (.carry n)).Sound asked due items ∧ x.Onward items (x.move (.carry n)) items := by
  refine ⟨⟨h.listens, h.stays, h.wired, h.tied, h.bytes, h.fits, ?_, h.due, h.dated⟩, rfl,
    fun hfollows => hfollows⟩
  simp [move, Conversation.receive, h.asked]

theorem Sound.deliver (h : x.Sound asked due items) (n : Nat) :
    (x.move (.deliver n)).Sound asked due items ∧ x.Onward items (x.move (.deliver n)) items := by
  refine ⟨⟨h.listens, h.stays, h.wired, h.tied, ?_, h.fits, h.asked, h.due, h.dated⟩, rfl,
    fun hfollows => hfollows⟩
  simp only [move]
  rw [← h.bytes, List.append_assoc, ← List.append_assoc (x.talk.sent.take n), List.take_append_drop]

/-- A frame is begun, or the connection is over and its sessions have ended. -/
theorem Sound.begins (h : x.Sound asked due items) {m : ServerMessage} {waiting : List (List UInt8)}
    {s : Server} {rest : List (List UInt8)} (hopen : x.talk.isOver = false)
    (hpending : x.talk.pending = []) (hwired : s.Wired) (hkeeps : x.server.Keeps s)
    (htied : s.Tied x.talk.conn x.talk.line)
    (hnext : x.server.station.registry.nextId ≤ s.station.registry.nextId)
    (hrest : rest = waiting.map replyMessage)
    (hdue : replies items ++ (m.response?.toList ++ waiting) = due)
    (hdated : ∀ n, m = .notification n → ∀ id, n.session? = some id →
      id.toNat < s.station.registry.nextId)
    (hleads : ∀ {id box d}, x.server.Leads x.talk.conn x.talk.line id box d →
      s.Leads x.talk.conn x.talk.line id box (Wire.leads (.ofNat id) d m.note?.toList))
    (hbegins : Conversation.Begins s { x.talk with replies := rest } m.encode s' c') :
    ∃ items', (x.put (s', c')).Sound asked due items' ∧
      x.Onward items (x.put (s', c')) items' := by
  cases hbegins with
  | refused hlong =>
      refine ⟨items, ⟨fun hclosing => (by cases hclosing), h.stays,
        (hwired.disconnect _).withLines _, fun hopen => (by cases hopen), h.bytes, h.fits, h.asked,
        ⟨_, fun hopen => (by cases hopen), hdue⟩, fun hopen => (by cases hopen)⟩, rfl,
        fun hfollows => .inl ?_⟩
      have hdisconnect := (hwired.accounted.disconnect x.talk.conn).1
      rcases hfollows with hended | ⟨-, howned, -⟩
      · exact hdisconnect.ended _ (hkeeps.ended _ hended)
      · rcases hkeeps.owned _ _ howned with howned | hended
        · exact hwired.accounted.ended_disconnect howned
        · exact hdisconnect.ended _ hended
  | fits hlen =>
      have hbytes := h.bytes
      have hnotes : notes (items ++ [m]) = notes items ++ m.note?.toList := by
        cases m <;> simp [ServerMessage.note?]
      have hreplies : replies (items ++ [m]) = replies items ++ m.response?.toList := by
        cases m <;> simp [ServerMessage.response?]
      rw [hpending, List.append_nil] at hbytes
      refine ⟨items ++ [m], ⟨h.listens, h.stays, hwired, fun _ => htied, ?_, ?_, h.asked, ?_,
        fun _ => ?_⟩, rfl, fun hfollows => ?_⟩
      · simp [put, ← hbytes]
      · exact List.forall_mem_append.mpr ⟨h.fits, List.forall_mem_singleton.mpr hlen⟩
      · exact ⟨waiting, fun _ => hrest, by rw [hreplies, List.append_assoc, hdue]⟩
      · rw [hnotes, ← List.append_assoc]
        intro n hn id hid
        rcases List.mem_append.mp hn with hn | hn
        · exact Nat.lt_of_lt_of_le (h.dated hopen n hn id hid) hnext
        · cases m with
          | reply response => cases hn
          | notification n' => exact hdated n (by rw [List.mem_singleton.mp hn]) id hid
      · rcases hfollows with hended | ⟨-, howned, hled⟩
        · exact .inl (hkeeps.ended _ hended)
        · rcases hkeeps.owned _ _ howned with howned | hended
          · have hbegun := hleads hled
            rw [← Wire.leads_append, List.append_assoc, ← hnotes] at hbegun
            exact .inr ⟨hopen, howned, hbegun⟩
          · exact .inl hended

theorem Sound.writes (h : x.Sound asked due items)
    (hwrites : Conversation.Writes x.server x.talk s' c') :
    ∃ items', (x.put (s', c')).Sound asked due items' ∧
      x.Onward items (x.put (s', c')) items' := by
  obtain ⟨waiting, hwaiting, hdue⟩ := h.due
  cases hwrites with
  | still => exact ⟨items, h, .refl x items⟩
  | part n hopen =>
      refine ⟨items, ⟨h.listens, h.stays, h.wired, h.tied, ?_, h.fits, h.asked, h.due, h.dated⟩,
        rfl, fun hfollows => hfollows⟩
      simp [put, ← h.bytes]
  | reply hopen hpending hreplies hbegins =>
      rw [hwaiting hopen] at hreplies
      obtain ⟨response, rest, rfl, rfl, rfl⟩ := List.map_eq_cons_iff.mp hreplies
      exact h.begins (m := .reply response) hopen hpending h.wired
        (h.wired.accounted.steady (.refl _)) (h.tied hopen) (Nat.le_refl _) rfl hdue
        (fun n hn => by cases hn) (fun hleads => hleads) hbegins
  | @note n rest o _ _ hserving hpending hline hbegins =>
      have hopen : x.talk.isOver = false := by simp [Conversation.isOver, hserving]
      have hkeep : { x.talk with replies := waiting.map replyMessage } = x.talk := by
        rw [← hwaiting hopen]
      have hset := Inboxes.set_eq_dropFirst hline
      have hqueued : x.server.queued x.talk.line = n :: rest := by
        rw [Server.queued, Inboxes.queued_eq, hline]
        rfl
      rw [← hkeep, hset] at hbegins
      refine h.begins (m := .notification n) hopen hpending (h.wired.withLines _)
        (h.wired.accounted.steady (Server.steady_withLines _ _)) (h.tied hopen).pop
        (Nat.le_refl _) rfl hdue (fun n' hn' => ?_) (fun hleads => hleads.pop hqueued) hbegins
      cases hn'
      exact (h.tied hopen).dated n (hqueued ▸ List.mem_cons_self)
  | done _ hclosing => exact absurd hclosing h.listens

theorem Sound.read (h : x.Sound [] due items) : x.move .read = x := by
  have hincoming := (List.append_eq_nil_iff.mp h.asked).1
  have hframe : ¬ x.talk.hasFrame := by simp [Conversation.hasFrame, hincoming]
  have hread := (Conversation.readStep_of_idle (s := x.server) (c := x.talk)
    (.inr ⟨by simp [h.stays], hframe⟩)).2
  simp only [move, put, hread]

theorem Sound.read_request (h : x.Sound (framed message) [] items)
    (hmessage : message.length ≤ maxFrame) :
    x.move .read = x ∨ ∃ talk, x.talk.isOver = false ∧ talk.isOver = false ∧
      talk.conn = x.talk.conn ∧ talk.line = x.talk.line ∧
      x.move .read = x.put ((x.server.dispatch x.talk.conn message).2, talk) ∧
      (x.move .read).Sound [] [(x.server.dispatch x.talk.conn message).1] items ∧
      x.Onward items (x.move .read) items := by
  by_cases hready : x.talk.phase = .serving ∧ x.talk.hasFrame
  · right
    obtain ⟨hserving, hframe⟩ := hready
    have hopen : x.talk.isOver = false := by simp [Conversation.isOver, hserving]
    have hone : ∀ m ∈ [message], m.length ≤ maxFrame := by simpa using hmessage
    have hbytes : x.talk.incoming ++ x.client.outgoing = [message].flatMap framed := by
      simpa using h.asked
    obtain ⟨message', left, rest, hcons, hincoming, hrest⟩ :=
      Conversation.arrived_frame hone hbytes hframe
    cases hcons
    obtain ⟨waiting, hwaiting, hdue⟩ := h.due
    obtain ⟨hnone, rfl⟩ := List.append_eq_nil_iff.mp hdue
    have hread := (Conversation.readStep_of_request (s := x.server) hserving hmessage hincoming
      (.inr hframe)).2
    have htied := h.tied hopen
    obtain ⟨fs, hlink⟩ := htied.link
    have hlinked : x.server.links.has x.talk.conn := (Table.has_iff _ _).mpr ⟨_, hlink⟩
    obtain ⟨hwired, hsteers⟩ := h.wired.dispatch htied message
    obtain ⟨hsound, honward⟩ :=
      h.steers hwired (h.wired.accounted.dispatch hlinked message) fun _ => hsteers
    simp only [move, hread]
    refine ⟨_, hopen, ?_, ?_, ?_, rfl, ⟨h.listens, h.stays, hwired, hsound.tied, h.bytes, h.fits,
      ?_, ?_, hsound.dated⟩, honward.attached, honward.follows⟩
    · exact hopen
    · rfl
    · rfl
    · simpa [put] using hrest
    · exact ⟨[_], fun _ => by simp only [put, hwaiting hopen]; rfl, by rw [hnone]; rfl⟩
  · left
    have hread := (Conversation.readStep_of_idle (s := x.server) (c := x.talk) ?_).2
    · simp only [move, put, hread]
    · rcases not_and_or.mp hready with hphase | hframe
      · exact .inl hphase
      · exact .inr ⟨by simp [h.stays], hframe⟩

theorem Sound.move (h : x.Sound asked due items) {m : Move} (hm : m ≠ .read) :
    ∃ items', (x.move m).Sound asked due items' ∧ x.Onward items (x.move m) items' := by
  cases m with
  | elsewhere t => exact ⟨items, h.elsewhere t⟩
  | pass f => exact ⟨items, h.pass f⟩
  | carry n => exact ⟨items, h.carry n⟩
  | deliver n => exact ⟨items, h.deliver n⟩
  | read => exact absurd rfl hm
  | write n => exact h.writes (Conversation.writes_writeStep n _ _)
  | interject => exact h.writes (Conversation.writes_interject _ _)

theorem sound_opening {s : Server} (hs : s.Wired) (conn : Nat) (token : String) :
    (opening s conn token : Scene μ).Sound [] [] [] where
  listens := fun hclosing => by cases hclosing
  stays := rfl
  wired := hs.connect conn
  tied := fun _ => Server.tied_connect s conn
  bytes := rfl
  fits := List.forall_mem_nil _
  asked := rfl
  due := ⟨[], fun _ => rfl, rfl⟩
  dated := fun _ n hn => by cases hn

end Scene
end Patchbay
