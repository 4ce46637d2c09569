import Patchbay.Proofs.Inboxes
import Patchbay.Proofs.Route.Subscriptions
import Patchbay.Wire.Notification

/-!
# Backlogs

What still waits for a follower of a session leads from the device that the follower knows to the
device of the decision. Whatever the switchboard does keeps this, for as long as the session is
registered: every move joins the backlog at its end, and no notice of the session is anywhere
else.
-/
namespace Patchbay

namespace Wire

/-- The device of session `id` after a notification, as its follower sees it. -/
def Notification.lead (id : UInt64) (d : Device) : Notification → Device
  | deviceChanged id' _ current => if id' = id then current else d
  | teardown _ _ | parameter _ => d

/-- Where notifications lead who follows session `id` from the device `d` on. -/
def leads (id : UInt64) (d : Device) (ns : List Notification) : Device :=
  ns.foldl (Notification.lead id) d

variable {id : UInt64} {d : Device} {n : Notification} {ns ns' : List Notification}

@[simp]
theorem leads_nil : leads id d [] = d := rfl

@[simp]
theorem leads_cons : leads id d (n :: ns) = leads id (n.lead id d) ns := rfl

@[simp]
theorem leads_append : leads id d (ns ++ ns') = leads id (leads id d ns) ns' :=
  List.foldl_append

theorem Notification.lead_of_other (h : n.session? ≠ some id) : n.lead id d = d := by
  cases n with
  | deviceChanged id' previous current => exact if_neg fun hid => h (congrArg some hid)
  | teardown | parameter => rfl

theorem leads_of_others (h : ∀ n ∈ ns, n.session? ≠ some id) : leads id d ns = d := by
  induction ns with
  | nil => rfl
  | cons n ns ih =>
      rw [List.forall_mem_cons] at h
      rw [leads_cons, Notification.lead_of_other h.1, ih h.2]

end Wire

open Wire (Notification leads)

theorem session?_ofNotice (n : SessionNotice) :
    (Notification.ofNotice n).session? = some (UInt64.ofNat n.sessionId) := by
  cases n <;> rfl

namespace NoticeBoard

variable {b : NoticeBoard} {id id' box i limit : Nat} {n m : SessionNotice} {d d' : Device}

theorem mem_waiting_notify (h : m ∈ (b.notify id n).2.waiting i) :
    m ∈ b.waiting i ∨ m = n ∧ b.readers.get? id = some i := by
  rcases b.notify_cases id n with ⟨-, hsame⟩ | ⟨j, hreader, ⟨-, hforget⟩ | ⟨hopen, hsend⟩⟩
  · rw [hsame] at h
    exact .inl h
  · rw [hforget] at h
    exact .inl h
  · rw [hsend] at h
    by_cases hsame : j = i
    · subst hsame
      rw [waiting_sendTo_self hopen, List.mem_append, List.mem_singleton] at h
      exact h.imp_right fun hm => ⟨hm, hreader⟩
    · rw [waiting_sendTo_of_ne hsame] at h
      exact .inl h

theorem mem_waiting_subscribe (h : m ∈ (b.subscribe id).2.waiting i) : m ∈ b.waiting i := by
  by_cases hmade : i < b.boxes.length
  · rw [waiting_eq] at h ⊢
    have hbox : (b.subscribe id).2.boxes[i]? = b.boxes[i]? := getElem?_join_of_lt hmade
    rw [← hbox]
    exact h
  · have hbox : (b.subscribe id).2.boxes[i]? = none ∨ (b.subscribe id).2.boxes[i]? = some {} := by
      show (b.boxes ++ [({} : Inbox SessionNotice)])[i]? = none ∨
        (b.boxes ++ [({} : Inbox SessionNotice)])[i]? = some {}
      rw [List.getElem?_append_right (Nat.le_of_not_lt hmade)]
      cases i - b.boxes.length with
      | zero => exact .inr rfl
      | succ k => exact .inl rfl
    rw [waiting_eq] at h
    rcases hbox with hbox | hbox <;> rw [hbox] at h <;> cases h

/-- The board when the first that waits in an inbox has been read. -/
def dropFirst (b : NoticeBoard) (i : Nat) : NoticeBoard :=
  { b with boxes := b.boxes.dropFirst i }

theorem waiting_dropFirst (b : NoticeBoard) (i : Nat) :
    (b.dropFirst i).waiting i = (b.waiting i).tail :=
  b.boxes.queued_dropFirst i

theorem waiting_dropFirst_of_ne (b : NoticeBoard) (h : box ≠ i) :
    (b.dropFirst box).waiting i = b.waiting i :=
  Inboxes.queued_modify_of_ne h

theorem mem_waiting_dropFirst (h : m ∈ (b.dropFirst box).waiting i) : m ∈ b.waiting i := by
  by_cases hsame : box = i
  · subst hsame
    rw [waiting_dropFirst] at h
    exact List.mem_of_mem_tail h
  · rw [waiting_dropFirst_of_ne b hsame] at h
    exact h

theorem mem_waiting_close (h : m ∈ (b.close box).waiting i) : m ∈ b.waiting i := by
  by_cases hsame : box = i
  · subst hsame
    rw [waiting_eq] at h
    have hbox : (b.close box).boxes[box]? = (b.boxes[box]?).map fun _ => ⟨[], false⟩ := by
      show (b.boxes.modify box _)[box]? = _
      simp
    rw [hbox] at h
    cases hb : b.boxes[box]? <;> rw [hb] at h <;> cases h
  · rw [(close_spares hsame b).waiting] at h
    exact h

/-- All notices that wait are of sessions with numbers below `limit`. -/
def Dated (b : NoticeBoard) (limit : Nat) : Prop :=
  ∀ i, ∀ n ∈ b.waiting i, n.sessionId < limit

theorem Dated.mono {m : Nat} (h : b.Dated limit) (hle : limit ≤ m) : b.Dated m :=
  fun i n hn => Nat.lt_of_lt_of_le (h i n hn) hle

/-- The inbox `box` takes all notices of session `id`, and those that wait there lead from `d`
to `d'`. -/
structure Tracks (b : NoticeBoard) (id box : Nat) (d d' : Device) : Prop where
  serves : b.Serves id box
  alone : ∀ i, ∀ n ∈ b.waiting i, n.sessionId = id → i = box
  leads : Wire.leads (.ofNat id) d ((b.waiting box).map .ofNotice) = d'

theorem Tracks.notify (h : b.Tracks id box d d') (n : SessionNotice) :
    (b.notify id n).2.Tracks id box d ((Notification.ofNotice n).lead (.ofNat id) d') := by
  obtain ⟨hserves, hwaiting⟩ := h.serves.notify n
  refine ⟨hserves, fun i m hm hid => ?_, ?_⟩
  · rcases mem_waiting_notify hm with hm | ⟨-, hreader⟩
    · exact h.alone i m hm hid
    · exact Option.some.inj (hreader.symm.trans h.serves.reader)
  · rw [hwaiting, List.map_append, Wire.leads_append, h.leads]
    rfl

theorem Tracks.spares {b' : NoticeBoard} (h : b.Tracks id box d d') (hspares : b.Spares b' box)
    (hwaiting : ∀ i, ∀ m ∈ b'.waiting i, m ∈ b.waiting i ∨ m.sessionId ≠ id) :
    b'.Tracks id box d d' := by
  refine ⟨hspares.serves h.serves, fun i m hm hid => ?_, ?_⟩
  · exact h.alone i m ((hwaiting i m hm).resolve_right fun hne => hne hid) hid
  · rw [hspares.waiting, h.leads]

theorem Tracks.notify_other (h : b.Tracks id box d d') (hb : b.Sound) (hne : id' ≠ id)
    (hn : n.sessionId = id') : (b.notify id' n).2.Tracks id box d d' := by
  refine h.spares (notify_spares (hb.unserved h.serves hne) n) fun i m hm => ?_
  rcases mem_waiting_notify hm with hm | ⟨rfl, -⟩
  · exact .inl hm
  · exact .inr (hn ▸ hne)

theorem Tracks.remove_other (h : b.Tracks id box d d') (hb : b.Sound) (hne : id' ≠ id) :
    (b.remove id').2.Tracks id box d d' :=
  h.spares (remove_spares (hb.unserved h.serves hne)) fun _ _ hm => .inl hm

theorem Tracks.subscribe_other (h : b.Tracks id box d d') (hb : b.Sound) (hne : id' ≠ id) :
    (b.subscribe id').2.Tracks id box d d' :=
  h.spares (subscribe_spares (hb.made id box h.serves.reader) (hb.unserved h.serves hne))
    fun _ _ hm => .inl (mem_waiting_subscribe hm)

theorem tracks_subscribe (hnew : ∀ i, ∀ n ∈ b.waiting i, n.sessionId ≠ id) (d : Device) :
    (b.subscribe id).2.Tracks id (b.subscribe id).1 d d := by
  obtain ⟨hserves, hwaiting⟩ := b.serves_subscribe id
  refine ⟨hserves, fun i n hn hid => absurd hid (hnew i n (mem_waiting_subscribe hn)), ?_⟩
  rw [hwaiting]
  rfl

theorem Serves.dropFirst (h : b.Serves id box) (i : Nat) : (b.dropFirst i).Serves id box :=
  ⟨h.reader, (b.boxes.isOpen_dropFirst i box).trans h.isOpen⟩

theorem Tracks.dropFirst (h : b.Tracks id box d d') {rest : List SessionNotice}
    (hwaiting : b.waiting box = n :: rest) :
    (b.dropFirst box).Tracks id box ((Notification.ofNotice n).lead (.ofNat id) d) d' := by
  refine ⟨h.serves.dropFirst box, fun i m hm => h.alone i m (mem_waiting_dropFirst hm), ?_⟩
  have hleads := h.leads
  rw [hwaiting] at hleads
  rw [waiting_dropFirst, hwaiting]
  exact hleads

theorem Tracks.dropFirst_other (h : b.Tracks id box d d') (hne : i ≠ box) :
    (b.dropFirst i).Tracks id box d d' := by
  refine ⟨h.serves.dropFirst i, fun j m hm => h.alone j m (mem_waiting_dropFirst hm), ?_⟩
  rw [waiting_dropFirst_of_ne b hne]
  exact h.leads

theorem Tracks.close_other (h : b.Tracks id box d d') (hne : i ≠ box) :
    (b.close i).Tracks id box d d' :=
  h.spares (close_spares hne b) fun _ _ hm => .inl (mem_waiting_close hm)

end NoticeBoard

namespace Switchboard

variable {b : Switchboard} {r : Roster} {reg : Registry} {w w' : Sweep} {id id' box : Nat}
  {d : Device} {e : RouteEntry} {n : SessionNotice}

/-- As long as session `id` is registered, inbox `box` leads from `d` to its device. -/
def Holds (b : Switchboard) (id box : Nat) (d : Device) : Prop :=
  ∀ e, b.entries.get? id = some e → b.board.Tracks id box d e.decision.device

theorem Orderly.entry_lt (h : b.Orderly reg) (hr : reg.Numbered)
    (hget : b.entries.get? id = some e) : id < reg.nextId := by
  obtain ⟨s, hs, -⟩ := h.sessions id e hget
  exact (hr id s hs).2

theorem Orderly.dated_notify (h : b.Orderly reg) (hr : reg.Numbered)
    (hdated : b.board.Dated reg.nextId) (hn : n.sessionId = id) :
    (b.board.notify id n).2.Dated reg.nextId := by
  intro i m hm
  rcases NoticeBoard.mem_waiting_notify hm with hm | ⟨rfl, hreader⟩
  · exact hdated i m hm
  · obtain ⟨e, hget⟩ := h.readers id i hreader
    rw [hn]
    exact h.entry_lt hr hget

theorem Holds.visit (h : w.board.Holds id box d) (hboard : w.board.board.Sound)
    (hget : w.board.entries.get? id' = some e) (hvisit : w.Visits id' e w') :
    w'.board.Holds id box d := by
  cases hvisit with
  | skip => exact h
  | give => exact h
  | move current previous generation moved =>
      intro e' hentry
      rcases Table.get?_put_cases hentry with ⟨rfl, rfl⟩ | ⟨hne, hentry⟩
      · have htracks := (h e hget).notify (.deviceChanged id e.decision.device current)
        simpa [Notification.lead, Notification.ofNotice] using htracks
      · exact (h e' hentry).notify_other hboard (Ne.symm hne) rfl

theorem Holds.tearDown (h : b.Holds id box d) (hboard : b.board.Sound) (id' : Nat)
    (reason : String) : (b.tearDown id' reason).Holds id box d := by
  intro e hentry
  rw [entries_tearDown] at hentry
  obtain ⟨hne, hentry⟩ := Table.get?_of_get?_erase hentry
  have htracks := (h e hentry).notify_other hboard (Ne.symm hne)
    (n := .teardown id' reason) rfl
  exact htracks.remove_other (hboard.notify id' _) (Ne.symm hne)

theorem Holds.handleChange (h : b.Holds id box d) (hb : b.Orderly reg) (hr : reg.Numbered)
    (r : Roster) (change : DeviceChange) : (b.handleChange r reg change).2.1.Holds id box d := by
  have hboth := handleChange_induction
    (P := fun b reg => b.Orderly reg ∧ b.Holds id box d) r change hr ⟨hb, h⟩
    (fun _ _ _ _ hr h hget hvisit =>
      ⟨h.1.visit hr hget hvisit, h.2.visit h.1.board hget hvisit⟩)
    (fun _ _ id reason h _ => ⟨h.1.tearDown id reason, h.2.tearDown h.1.board id reason⟩)
    (fun _ _ _ h => ⟨{ h.1 with }, h.2⟩)
  exact hboth.2

theorem Holds.handleEvent (h : b.Holds id box d) (hboard : b.board.Sound) (event : SessionEvent) :
    (b.handleEvent event).Holds id box d := by
  unfold Switchboard.handleEvent
  split
  · exact h.tearDown hboard _ _
  · exact h

theorem Holds.register (h : b.Holds id box d) (hboard : b.board.Sound) {s : Session}
    (hne : s.id ≠ id) (r : Roster) (reg : Registry) : (b.register r reg s).2.1.Holds id box d := by
  rcases b.register_cases r reg s with ⟨error, registry, hrefused, -⟩ | ⟨d', previous, -, -, hok⟩
  · rw [hrefused]
    exact h
  · rw [hok]
    intro e hentry
    rcases Table.get?_put_cases hentry with ⟨rfl, -⟩ | ⟨-, hentry⟩
    · exact absurd rfl hne
    · exact (h e hentry).subscribe_other hboard hne

/-- A session that is registered is followed from the device of the answer on. -/
theorem holds_register {s : Session} {decision : RouteDecision}
    (hnew : ∀ i, ∀ n ∈ b.board.waiting i, n.sessionId ≠ s.id)
    (h : (b.register r reg s).1 = .ok (decision, box)) :
    (b.register r reg s).2.1.Holds s.id box decision.device := by
  rcases b.register_cases r reg s with ⟨error, registry, hrefused, -⟩ | ⟨d', previous, -, -, hok⟩
  · rw [hrefused] at h
    cases h
  · rw [hok] at h ⊢
    cases h
    intro e hentry
    rcases Table.get?_put_cases hentry with ⟨-, rfl⟩ | ⟨hne, -⟩
    · exact NoticeBoard.tracks_subscribe hnew d'
    · exact absurd rfl hne

theorem Orderly.dated_tearDown (h : b.Orderly reg) (hr : reg.Numbered)
    (hdated : b.board.Dated reg.nextId) (id : Nat) (reason : String) :
    (b.tearDown id reason).board.Dated reg.nextId :=
  h.dated_notify hr hdated (n := .teardown id reason) rfl

theorem Orderly.dated_handleChange (h : b.Orderly reg) (hr : reg.Numbered)
    (hdated : b.board.Dated reg.nextId) (r : Roster) (change : DeviceChange) :
    (b.handleChange r reg change).2.1.board.Dated reg.nextId := by
  have hall := handleChange_induction
    (P := fun b' reg' => b'.Orderly reg' ∧ reg.GoesOn reg' ∧ b'.board.Dated reg.nextId) r change hr
    ⟨h, .refl reg, hdated⟩
    (fun _ _ _ _ hr' h hget hvisit => by
      refine ⟨h.1.visit hr' hget hvisit, h.2.1.trans (hvisit.goesOn hr'), ?_⟩
      cases hvisit with
      | skip | give => exact h.2.2
      | move =>
          have hdated := h.2.2
          rw [← h.2.1.nextId] at hdated ⊢
          exact h.1.dated_notify hr' hdated rfl)
    (fun _ reg' id reason h _ => by
      refine ⟨h.1.tearDown id reason, h.2.1, ?_⟩
      have hdated := h.2.2
      rw [← h.2.1.nextId] at hdated ⊢
      exact h.1.dated_tearDown (h.2.1.numbered hr) hdated id reason)
    (fun _ _ _ h => ⟨{ h.1 with }, h.2⟩)
  exact hall.2.2

theorem Orderly.dated_handleEvent (h : b.Orderly reg) (hr : reg.Numbered)
    (hdated : b.board.Dated reg.nextId) (event : SessionEvent) :
    (b.handleEvent event).board.Dated reg.nextId := by
  unfold Switchboard.handleEvent
  split
  · exact h.dated_tearDown hr hdated _ _
  · exact hdated

theorem mem_waiting_register {s : Session} {i : Nat}
    (h : n ∈ (b.register r reg s).2.1.board.waiting i) : n ∈ b.board.waiting i := by
  rcases b.register_cases r reg s with ⟨error, registry, hrefused, -⟩ | ⟨d', previous, -, -, hok⟩
  · rw [hrefused] at h
    exact h
  · rw [hok] at h
    exact NoticeBoard.mem_waiting_subscribe h

theorem length_notify (b : NoticeBoard) (id : Nat) (n : SessionNotice) :
    (b.notify id n).2.boxes.length = b.boxes.length := by
  rcases b.notify_cases id n with ⟨-, hsame⟩ | ⟨i, -, ⟨-, hforget⟩ | ⟨-, hsend⟩⟩
  · rw [hsame]
  · rw [hforget]
  · rw [hsend]
    exact NoticeBoard.length_sendTo _ i n

theorem length_tearDown (b : Switchboard) (id : Nat) (reason : String) :
    (b.tearDown id reason).board.boxes.length = b.board.boxes.length :=
  length_notify _ _ _

theorem length_handleEvent (b : Switchboard) (event : SessionEvent) :
    (b.handleEvent event).board.boxes.length = b.board.boxes.length := by
  unfold Switchboard.handleEvent
  split
  · exact b.length_tearDown _ _
  · rfl

theorem length_handleChange (hr : reg.Numbered) (r : Roster)
    (change : DeviceChange) :
    (b.handleChange r reg change).2.1.board.boxes.length = b.board.boxes.length :=
  handleChange_induction (P := fun b' _ => b'.board.boxes.length = b.board.boxes.length) r change hr
    rfl
    (fun _ _ _ _ _ h _ hvisit => by
      cases hvisit with
      | skip | give => exact h
      | move => exact (length_notify _ _ _).trans h)
    (fun b id _ reason h _ => (length_tearDown _ _ _).trans h)
    (fun _ _ _ h => h)

theorem register_box {s : Session} {decision : RouteDecision}
    (h : (b.register r reg s).1 = .ok (decision, box)) :
    box = b.board.boxes.length ∧
      (b.register r reg s).2.1.board.boxes.length = b.board.boxes.length + 1 := by
  rcases b.register_cases r reg s with ⟨error, registry, hrefused, -⟩ | ⟨d', previous, -, -, hok⟩
  · rw [hrefused] at h
    cases h
  · rw [hok] at h ⊢
    cases h
    exact ⟨rfl, List.length_append⟩

end Switchboard
end Patchbay
