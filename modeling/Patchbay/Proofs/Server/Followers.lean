import Mathlib.Logic.Relation
import Patchbay.Proofs.Server.Scenes

/-!
# Followers of a session

The client of a stream learns its device from the reply that makes the session and from the
notifications that it reads. The two come by different ways and may overtake each other. In
whatever order everything happens, when all notifications have been read the client knows the
device that its session is routed to.
-/
namespace Patchbay
open Wire (ServerMessage Notification Request Response framed replyMessage replies notes stream
  maxFrame)

namespace Scene
variable {μ : Type}

/-- A call: the request is sent, things happen, and the client reads on to the reply. A request
that is too long is not sent. After a call that cannot read its reply the connection is of no use
any more; it is no call here. -/
inductive Calls (x : Scene μ) (r : Request) : Except WireError Response → Scene μ → Prop
  | refused {e : WireError} (hsend : x.client.send r = (.error e, x.client)) :
      Calls x r (.error e) x
  | answered {c c' : Wire.Client} {response : List UInt8} (ms : List Move)
      (hsend : x.client.send r = (.ok (), c))
      (hreply : (moves { x with client := c } ms).client.nextReply = (.ok response, c')) :
      Calls x r (Wire.decode (Response.readFor r.kind) response)
        { moves { x with client := c } ms with client := c' }

/-- One act of the client, or one move of the others. Once the client is attached to a stream it
reads notifications as the client of this stream only. -/
inductive Act : Scene μ → Scene μ → Prop
  | move (x : Scene μ) (m : Move) : Act x (x.move m)
  | call {x y : Scene μ} {r : Request} {a : Except WireError Response} (hcall : x.Calls r a y) :
      Act x y
  | next {x : Scene μ} {c : Wire.Client} {n : Notification} (hnone : x.attached = none)
      (hnext : x.client.nextNotification = (.ok n, c)) : Act x { x with client := c }
  | poll {x : Scene μ} (hnone : x.attached = none) :
      Act x { x with client := x.client.queued?.2 }
  | create {x y : Scene μ} {p : Wire.ProcessClient μ} (w : Wire.Surroundings (Scene μ) μ)
      (hw : ∀ r x a y, w.call r x = (.ok a, y) → x.Calls r (.ok a) y) (config : StreamConfig)
      (hnone : x.attached = none) (hcreate : Wire.ProcessClient.create w config x = (.ok p, y)) :
      Act x { y with attached := some p }
  | observe {x : Scene μ} {c : Wire.Client} {n : Notification} {p : Wire.ProcessClient μ}
      (hsome : x.attached = some p) (hnext : x.client.nextNotification = (.ok n, c)) :
      Act x { x with client := c, attached := some (p.observe n) }
  | release {x y : Scene μ} {a : Response} {p : Wire.ProcessClient μ} (hsome : x.attached = some p)
      (hcall : x.Calls (.release p.session) (.ok a) y) : Act x { y with attached := none }

/-- No notification of session `id` waits anywhere: in its subscription, on the line of the
connection, in the stream, or with the client. -/
structure Quiet (x : Scene μ) (id : Nat) : Prop where
  subscription : ∀ box, x.server.station.board.board.readers.get? id = some box →
    x.server.station.board.board.waiting box = []
  line : x.server.queued x.talk.line = []
  stream : x.client.incoming ++ (x.talk.sent ++ x.talk.pending) = []
  kept : x.client.queue = []

variable {x y : Scene μ} {items : List ServerMessage} {r : Request} {token : String}
  {a : Except WireError Response} {response : List UInt8} {id box : Nat} {d : Device}
  {p : Wire.ProcessClient μ} {n : Notification} {c : Wire.Client}

/-- If the reply tells of a new session, who follows it from the device in the reply on is led. -/
def Heeds (x : Scene μ) (items : List ServerMessage) (response : List UInt8) : Prop :=
  ∀ n d, Wire.decode (Response.readFor .createSession) response = .ok (.session n d) →
    ∃ id box, n = .ofNat id ∧ x.Follows items id box d

theorem Heeds.onward (h : x.Heeds items response) {items' : List ServerMessage}
    (honward : x.Onward items y items') : y.Heeds items' response := by
  intro n d hreply
  obtain ⟨id, box, hn, hfollows⟩ := h n d hreply
  exact ⟨id, box, hn, honward.follows hfollows⟩

/-- How far a call has come: its request is on the way, or has been dispatched. -/
inductive Underway (x : Scene μ) (r : Request) (token : String) (items : List ServerMessage) : Prop
  | asked (sound : x.Sound (framed (r.encode token)) [] items)
  | answered (response : List UInt8) (sound : x.Sound [] [response] items)
      (heeds : r.kind = .createSession → response.length ≤ maxFrame → x.Heeds items response)

/-- A new session is followed from the device in the reply on, whatever was told before. -/
theorem Sound.heeds_of_dispatch (h : x.Sound (framed (r.encode token)) [] items)
    (hr : r.kind = .createSession) {talk : Conversation} (hopen : x.talk.isOver = false)
    (hopen' : talk.isOver = false) (hconn : talk.conn = x.talk.conn)
    (hline : talk.line = x.talk.line)
    (hlen : (x.server.dispatch x.talk.conn (r.encode token)).1.length ≤ maxFrame) :
    (x.put ((x.server.dispatch x.talk.conn (r.encode token)).2, talk)).Heeds items
      (x.server.dispatch x.talk.conn (r.encode token)).1 := by
  obtain ⟨config, rfl⟩ : ∃ config, r = .createSession config := by
    cases r with
    | createSession config => exact ⟨config, rfl⟩
    | _ => cases hr
  intro n d hreply
  obtain ⟨hn, hgives⟩ := h.wired.gives_of_reply hlen hreply
  have hleads := Server.leads_gives h.wired (h.tied hopen) hgives
  refine ⟨_, x.server.station.board.board.boxes.length, hn, .inr ⟨hopen', ?_, ?_⟩⟩
  · show _ ∈ Server.sessionsOf _ talk.conn
    rw [hconn]
    exact hgives.owned
  show Server.Leads _ talk.conn talk.line _ _ _
  rw [hconn, hline]
  refine hleads.congr fun hsize => Wire.leads_of_others fun n' hn' hid => ?_
  have hlt := h.dated hopen n' hn' _ hid
  rw [hgives.nextId] at hsize
  rw [UInt64.toNat_ofNat_of_lt' hsize] at hlt
  exact Nat.lt_irrefl _ hlt

theorem Underway.move (h : x.Underway r token items) (hlen : (r.encode token).length ≤ maxFrame)
    (m : Move) :
    ∃ items', (x.move m).Underway r token items' ∧ x.Onward items (x.move m) items' := by
  cases h with
  | asked sound =>
      by_cases hm : m = .read
      · subst hm
        rcases sound.read_request hlen with
          hsame | ⟨talk, hopen, hopen', hconn, hline, hmove, hsound, honward⟩
        · rw [hsame]
          exact ⟨items, .asked sound, .refl x items⟩
        · refine ⟨items, .answered _ hsound fun hr hreply => ?_, honward⟩
          rw [hmove]
          exact sound.heeds_of_dispatch hr hopen hopen' hconn hline hreply
      · obtain ⟨items', hsound, honward⟩ := sound.move hm
        exact ⟨items', .asked hsound, honward⟩
  | answered response sound heeds =>
      by_cases hm : m = .read
      · subst hm
        rw [sound.read]
        exact ⟨items, .answered response sound heeds, .refl x items⟩
      · obtain ⟨items', hsound, honward⟩ := sound.move hm
        exact ⟨items', .answered response hsound fun hr hreply => (heeds hr hreply).onward honward,
          honward⟩

theorem Underway.moves (h : x.Underway r token items) (hlen : (r.encode token).length ≤ maxFrame)
    (ms : List Move) :
    ∃ items', (x.moves ms).Underway r token items' ∧ x.Onward items (x.moves ms) items' := by
  induction ms generalizing x items with
  | nil => exact ⟨items, h, .refl x items⟩
  | cons m ms ih =>
      obtain ⟨items', h', honward⟩ := h.move hlen m
      obtain ⟨items'', h'', honward'⟩ := ih h'
      exact ⟨items'', h'', honward.trans honward'⟩

/-- The client has got the reply that was due, and has kept the notifications before it. -/
theorem Underway.receive (h : x.Underway r token items)
    (hreply : x.client.nextReply = (.ok response, c)) :
    ∃ items', ({ x with client := c } : Scene μ).Sound [] [] items' ∧
      x.Onward items { x with client := c } items' ∧
      (r.kind = .createSession → ({ x with client := c } : Scene μ).Heeds items' response) := by
  cases h with
  | asked sound =>
      obtain ⟨ns, left, rest, rfl, -⟩ :=
        Wire.Client.nextReply_of_growing sound.fits sound.bytes hreply
      obtain ⟨waiting, -, hdue⟩ := sound.due
      simp at hdue
  | answered response' sound heeds =>
      obtain ⟨ns, left, rest, rfl, rfl, hrest⟩ :=
        Wire.Client.nextReply_of_growing sound.fits sound.bytes hreply
      obtain ⟨waiting, hwaiting, hdue⟩ := sound.due
      obtain ⟨rfl, hleft⟩ : response = response' ∧ replies left ++ waiting = [] := by
        simpa using hdue
      have hnotes : notes (ns.map .notification ++ .reply response :: left) = ns ++ notes left := by
        simp
      have honward : x.Onward (ns.map .notification ++ .reply response :: left)
          { x with client := { x.client with incoming := rest, queue := x.client.queue ++ ns } }
          left := by
        refine ⟨rfl, fun hfollows => ?_⟩
        rw [Follows, hnotes, ← List.append_assoc] at hfollows
        exact hfollows
      refine ⟨left, ⟨sound.listens, sound.stays, sound.wired, sound.tied, hrest, fun m hm => ?_,
        sound.asked, ⟨waiting, hwaiting, hleft⟩, ?_⟩, honward, fun hr => ?_⟩
      · exact sound.fits m (by simp [hm])
      · have hdated := sound.dated
        rw [hnotes, ← List.append_assoc] at hdated
        exact hdated
      · have hlen := sound.fits (.reply response) (by simp)
        rw [ServerMessage.encode, Wire.replyMessage, List.length_append] at hlen
        exact (heeds hr (Nat.le_of_add_left_le hlen)).onward honward

theorem Onward.of_send {outgoing : List UInt8} {items' : List ServerMessage}
    (h : ({ x with client := { x.client with outgoing := outgoing } } : Scene μ).Onward items y
      items') : x.Onward items y items' :=
  ⟨h.attached, h.follows⟩

theorem Sound.call (h : x.Sound [] [] items) (hcall : x.Calls r a y) :
    ∃ items', y.Sound [] [] items' ∧ x.Onward items y items' ∧
      ∀ n d, r.kind = .createSession → a = .ok (.session n d) →
        ∃ id box, n = .ofNat id ∧ y.Follows items' id box d := by
  cases hcall with
  | refused hsend => exact ⟨items, h, .refl x items, fun n d _ ha => by cases ha⟩
  | @answered c c' response ms hsend hreply =>
      by_cases hlen : Wire.Sendable x.client.token r
      · rw [Wire.Client.send_of_sendable hlen] at hsend
        cases hsend
        have hasked : ({ x with client := { x.client with
            outgoing := x.client.outgoing ++ framed (r.encode x.client.token) } } : Scene μ).Sound
              (framed (r.encode x.client.token)) [] items :=
          { h with asked := by rw [← List.append_assoc, h.asked, List.nil_append] }
        obtain ⟨items', hunderway, honward⟩ := (Underway.asked hasked).moves hlen ms
        obtain ⟨items'', hsound, honward', hheeds⟩ := hunderway.receive hreply
        refine ⟨items'', hsound, (honward.trans honward').of_send, fun n d hr ha => ?_⟩
        rw [hr] at ha
        exact hheeds hr n d ha
      · rw [Wire.Client.send, Wire.frame, if_pos (Nat.lt_of_not_le hlen)] at hsend
        cases hsend

theorem calls_of_create {w : Wire.Surroundings (Scene μ) μ}
    (hw : ∀ r x a y, w.call r x = (.ok a, y) → x.Calls r (.ok a) y) {config : StreamConfig}
    (h : Wire.ProcessClient.create w config x = (.ok p, y)) :
    ∃ z answer, x.Calls (.createSession config) (.ok (.session p.session p.device)) z ∧
      z.Calls (.resolveBuffer p.session) (.ok answer) y := by
  unfold Wire.ProcessClient.create at h
  split at h
  · rename_i n d z hcreate
    unfold Wire.ProcessClient.attach at h
    split at h
    · rename_i handle path z' hresolve
      split at h
      · cases h
        exact ⟨z, _, hw _ _ _ _ hcreate, hw _ _ _ _ hresolve⟩
      · cases h
    · cases h
    · cases h
  · cases h
  · cases h

theorem observe_session (p : Wire.ProcessClient μ) (n : Notification) :
    (p.observe n).session = p.session := by
  unfold Wire.ProcessClient.observe
  split
  · split <;> rfl
  · rfl

theorem observe_device (p : Wire.ProcessClient μ) (n : Notification) :
    (p.observe n).device = n.lead p.session p.device := by
  cases n with
  | deviceChanged id previous current =>
      unfold Wire.ProcessClient.observe Notification.lead
      dsimp only
      split <;> rfl
  | teardown | parameter => rfl

/-- Nothing is due, and the client of a stream is led to the device of its session. -/
def Settled (x : Scene μ) : Prop :=
  ∃ items, x.Sound [] [] items ∧ ∀ p, x.attached = some p →
    ∃ id box, p.session = .ofNat id ∧ x.Follows items id box p.device

theorem Sound.settled (h : x.Sound [] [] items) (hnone : x.attached = none) : x.Settled :=
  ⟨items, h, fun p hp => by rw [hnone] at hp; cases hp⟩

theorem Settled.onward {items' : List ServerMessage}
    (h : ∀ p, x.attached = some p →
      ∃ id box, p.session = .ofNat id ∧ x.Follows items id box p.device)
    (honward : x.Onward items y items') (hsound : y.Sound [] [] items') : y.Settled := by
  refine ⟨items', hsound, fun p hp => ?_⟩
  obtain ⟨id, box, hid, hfollows⟩ := h p (honward.attached ▸ hp)
  exact ⟨id, box, hid, honward.follows hfollows⟩

/-- The client takes the first notification, kept or on its way. -/
theorem Sound.next (h : x.Sound [] [] items) (hnext : x.client.nextNotification = (.ok n, c)) :
    ∃ items', ({ x with client := c } : Scene μ).Sound [] [] items' ∧
      x.client.queue ++ notes items = n :: (c.queue ++ notes items') := by
  have hdated := h.dated
  rcases Wire.Client.nextNotification_of_growing h.fits h.bytes hnext with
    ⟨ns, hqueue, rfl⟩ | ⟨hqueue, left, rest, rfl, rfl, hrest⟩
  · have hcons : x.client.queue ++ notes items = n :: (ns ++ notes items) := by
      rw [hqueue, List.cons_append]
    rw [hcons] at hdated
    exact ⟨items, { h with
      dated := fun hopen m hm => hdated hopen m (List.mem_cons_of_mem _ hm) }, hcons⟩
  · have hcons : x.client.queue ++ notes (.notification n :: left) = n :: notes left := by
      rw [hqueue]
      rfl
    rw [hcons] at hdated
    refine ⟨left, { h with
      bytes := hrest
      fits := fun m hm => h.fits m (List.mem_cons_of_mem _ hm)
      dated := fun hopen m hm => hdated hopen m (List.mem_cons_of_mem _ ?_) }, ?_⟩
    · simpa [hqueue] using hm
    · rw [hcons, hqueue]
      rfl

theorem Sound.poll (h : x.Sound [] [] items) :
    ({ x with client := x.client.queued?.2 } : Scene μ).Sound [] [] items := by
  have hdated := h.dated
  unfold Wire.Client.queued?
  split
  · rename_i n ns hqueue
    rw [hqueue] at hdated
    exact { h with dated := fun hopen m hm => hdated hopen m (List.mem_cons_of_mem _ hm) }
  · exact { h with }

/-- Whatever happens, the client of a stream is still led to its device. -/
theorem Settled.act (h : x.Settled) (hact : Act x y) : y.Settled := by
  obtain ⟨items, hsound, hfollows⟩ := h
  cases hact with
  | move m =>
      by_cases hm : m = .read
      · subst hm
        rw [hsound.read]
        exact ⟨items, hsound, hfollows⟩
      · obtain ⟨items', hsound', honward⟩ := hsound.move hm
        exact .onward hfollows honward hsound'
  | call hcall =>
      obtain ⟨items', hsound', honward, -⟩ := hsound.call hcall
      exact .onward hfollows honward hsound'
  | next hnone hnext =>
      obtain ⟨items', hsound', -⟩ := hsound.next hnext
      exact hsound'.settled hnone
  | poll hnone =>
      exact hsound.poll.settled hnone
  | create w hw config hnone hcreate =>
      obtain ⟨z, answer, hcreate, hresolve⟩ := calls_of_create hw hcreate
      obtain ⟨items', hsound', honward, hheeds⟩ := hsound.call hcreate
      obtain ⟨id, box, hid, hled⟩ := hheeds _ _ rfl rfl
      obtain ⟨items'', hsound'', honward', -⟩ := hsound'.call hresolve
      refine ⟨items'', { hsound'' with }, fun p' hp' => ?_⟩
      cases hp'
      exact ⟨id, box, hid, honward'.follows hled⟩
  | @observe c n p hsome hnext =>
      obtain ⟨items', hsound', hcons⟩ := hsound.next hnext
      obtain ⟨id, box, hid, hled⟩ := hfollows p hsome
      refine ⟨items', { hsound' with }, fun p' hp' => ?_⟩
      cases hp'
      refine ⟨id, box, (observe_session p n).trans hid, ?_⟩
      rw [Follows, hcons] at hled
      rw [observe_device, hid]
      exact hled
  | release hsome hcall =>
      obtain ⟨items', hsound', -⟩ := hsound.call hcall
      exact Sound.settled { hsound' with } rfl

theorem Settled.run (h : x.Settled) (hacts : Relation.ReflTransGen Act x y) : y.Settled := by
  induction hacts with
  | refl => exact h
  | tail _ hact ih => exact ih.act hact

/-- A call during which these moves happen. -/
def callDuring (ms : List Move) (r : Request) (x : Scene μ) :
    Except WireError Response × Scene μ :=
  match x.client.send r with
  | (.error e, _) => (.error e, x)
  | (.ok (), c) =>
    let x := moves { x with client := c } ms
    match x.client.nextReply with
    | (.error e, c) => (.error e, { x with client := c })
    | (.ok response, c) =>
      (Wire.decode (Response.readFor r.kind) response, { x with client := c })

/-- The rings of the server are mapped. -/
def surroundings (ms : Request → List Move) :
    Wire.Surroundings (Scene (Nat × RingMapping)) (Nat × RingMapping) where
  call r := callDuring (ms r) r
  map path x := x.server.station.registry.openRing path
  geometry m := m.2.geometry

end Scene
end Patchbay
