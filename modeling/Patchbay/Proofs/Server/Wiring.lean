import Patchbay.Proofs.Server.Forwarding
import Patchbay.Proofs.Server.Runs

/-!
# Wiring

What leads to the lines of a server: the inboxes of subscriptions, the forwarders, and the links of
connections. Whatever happens, only sessions that were made are told of, and only inboxes that were
made are forwarded.
-/
namespace Patchbay

namespace Registry
variable {r : Registry} {id : Nat}

@[simp]
theorem nextId_apply {α : Type} (r : Registry) (id : Nat)
    (op : Session → Except StreamError α × Session) : (r.apply id op).2.nextId = r.nextId := by
  unfold apply
  split <;> rfl

@[simp]
theorem nextId_remove (r : Registry) (id : Nat) : (r.remove id).2.nextId = r.nextId := by
  unfold remove
  split
  · rfl
  · unfold release
    dsimp only
    split
    · rfl
    · exact nextId_settle _ _

@[simp]
theorem nextId_reap (r : Registry) : r.reap.2.nextId = r.nextId := by
  obtain ⟨generation, hreap⟩ := r.reap_eq
  rw [hreap]

@[simp]
theorem nextId_abandon (r : Registry) (id : Nat) : (Server.abandon r id).nextId = r.nextId := by
  unfold Server.abandon
  split
  · rfl
  · split
    · rfl
    · unfold invalidate
      split
      · rfl
      · exact nextId_settle _ _

theorem nextId_create (r : Registry) (config : StreamConfig) :
    (r.create config).2.nextId = r.nextId + 1 ∧
      ∀ session, (r.create config).1 = .ok session → session.id = r.nextId := by
  rcases r.create_cases config with ⟨e, files, hmade⟩ | ⟨ring, files, -, hmade⟩
  · rw [hmade]
    exact ⟨rfl, fun session hsession => by cases hsession⟩
  · rw [hmade]
    exact ⟨rfl, fun session hsession => (congrArg Session.id (Except.ok.inj hsession)).symm⟩

theorem nextId_abandons (r : Registry) (ids : List Nat) :
    (ids.foldl Server.abandon r).nextId = r.nextId := by
  induction ids generalizing r with
  | nil => rfl
  | cons id ids ih => exact (ih _).trans (nextId_abandon r id)

end Registry

theorem Switchboard.nextId_register (b : Switchboard) (r : Roster) (reg : Registry) (s : Session) :
    (b.register r reg s).2.2.nextId = reg.nextId := by
  rcases b.register_cases r reg s with
    ⟨error, registry, hrefused, ⟨-, rfl⟩ | ⟨d, rfl⟩⟩ | ⟨d, previous, -, -, hok⟩
  · rw [hrefused]
  · rw [hrefused]
    exact Registry.nextId_apply _ _ _
  · rw [hok]
    exact Registry.nextId_apply _ _ _

namespace Server
open Wire (Notification)

variable {s s' : Server} {conn id box : Nat} {d : Device} {f : Forwarder}

/-- From `s` to `s'` nothing happened to what leads to the lines. -/
structure Alike (s s' : Server) : Prop where
  board : s'.station.board = s.station.board
  links : s'.links = s.links
  strays : s'.strays = s.strays
  lines : s'.lines = s.lines
  nextId : s.station.registry.nextId ≤ s'.station.registry.nextId

theorem Alike.refl (s : Server) : s.Alike s :=
  ⟨rfl, rfl, rfl, rfl, Nat.le_refl _⟩

theorem alike_onSession (s : Server) (conn id : Nat)
    (op : Session → Except StreamError Unit × Session) : s.Alike (s.onSession conn id op).2 := by
  unfold onSession
  split
  · exact .refl s
  · exact ⟨rfl, rfl, rfl, rfl, (Registry.nextId_apply _ id op).ge⟩

theorem alike_release (s : Server) (conn id : Nat) : s.Alike (s.release conn id).2 := by
  unfold Server.release
  split
  · exact .refl s
  · exact ⟨rfl, rfl, rfl, rfl, (Registry.nextId_remove _ id).ge⟩

theorem alike_resolve (s : Server) (conn id : Nat) : s.Alike (s.resolve conn id).2 := by
  have hnext : (s.station.apply id (·.resolve)).2.registry.nextId = s.station.registry.nextId :=
    Registry.nextId_apply _ id _
  unfold resolve
  split
  · exact .refl s
  · split
    · rename_i h
      rw [h] at hnext
      exact ⟨(congrArg (fun p => p.2.board) h).symm, rfl, rfl, rfl, hnext.ge⟩
    · rename_i handle st h
      rw [h] at hnext
      have hboard := (congrArg (fun p => p.2.board) h).symm
      dsimp only
      split <;> exact ⟨hboard, rfl, rfl, rfl, hnext.ge⟩

theorem alike_handle (s : Server) (conn : Nat) {r : Wire.Request}
    (hcreate : ∀ config, r ≠ .createSession config) : s.Alike (s.handle conn r).2 := by
  have hstation (st : Station) (hboard : st.board = s.station.board)
      (hnext : st.registry.nextId = s.station.registry.nextId) : s.Alike { s with station := st } :=
    ⟨hboard, rfl, rfl, rfl, hnext.ge⟩
  cases r with
  | createSession config => exact absurd rfl (hcreate config)
  | resolveBuffer id => exact alike_resolve s conn _
  | start id | pause id discard | resume id | stop id => exact alike_onSession s conn _ _
  | release id => exact alike_release s conn _
  | setVolume c v => exact hstation _ rfl (VolumeDesk.setVolume_goesOn _ _ c v).nextId
  | setMuted c m => exact hstation _ rfl (VolumeDesk.push_goesOn _ _ _).nextId
  | setRinger m => exact hstation _ rfl (VolumeDesk.push_goesOn _ _ _).nextId
  | setDeviceActive t active => exact hstation _ rfl rfl
  | setParameter key value => exact hstation _ rfl rfl
  | setRemoteParameter network key condition value => exact hstation _ rfl rfl
  | handleInfo | devices | volume | isMuted | isActive | isDeviceActive | ringer | parameter
  | remoteParameter => exact .refl s

/-- A session is made, routed and given to its connection under the next number, or nothing comes
of the request but that a number is used up. -/
theorem createSession_cases (s : Server) (conn : Nat) (config : StreamConfig) :
    (∃ e, (s.createSession conn config).1 = .error e) ∧
      s.Alike (s.createSession conn config).2 ∨
    ∃ (reg : Registry) (session : Session) (decision : RouteDecision) (box : Nat) (st : Station),
      session.id = s.station.registry.nextId ∧
      (s.station.board.register s.station.roster reg session).1 = .ok (decision, box) ∧
      st.board = (s.station.board.register s.station.roster reg session).2.1 ∧
      st.registry.nextId = s.station.registry.nextId + 1 ∧
      s.createSession conn config = (.ok (.session (.ofNat session.id) decision.device),
        { s with station := st }.adopt conn session.id box) := by
  unfold createSession
  cases hmade : s.station.registry.create config with
  | mk made registry =>
      have hnumbers := s.station.registry.nextId_create config
      rw [hmade] at hnumbers
      obtain ⟨hnext, hids⟩ := hnumbers
      cases made with
      | error e => exact .inl ⟨⟨_, rfl⟩, rfl, rfl, rfl, rfl, hnext ▸ Nat.le_succ _⟩
      | ok session =>
          have hid := hids session rfl
          dsimp only [Station.attach, Station.register]
          generalize hattached : s.station.desk.attach registry session.id = reg
          have hreg : reg.nextId = s.station.registry.nextId + 1 := by
            rw [← hattached, (VolumeDesk.attach_goesOn _ _ _).nextId, hnext]
          have hregister := s.station.board.nextId_register s.station.roster reg session
          have hboard := s.station.board.entries_register s.station.roster reg session
          generalize hanswer : s.station.board.register s.station.roster reg session = p at *
          obtain ⟨answer, board, registry'⟩ := p
          cases answer with
          | error e =>
              refine .inl ⟨⟨_, rfl⟩, hboard, rfl, rfl, rfl, ?_⟩
              show s.station.registry.nextId ≤ (registry'.remove session.id).2.nextId
              rw [Registry.nextId_remove, hregister, hreg]
              exact Nat.le_succ _
          | ok registered =>
              refine .inr ⟨reg, session, registered.1, registered.2,
                { s.station with registry := registry', board := board }, hid, by rw [hanswer], ?_⟩
              rw [hanswer]
              exact ⟨rfl, hregister.trans hreg, rfl⟩

/-- From `s` to `s'` the feeds of the forwarders `fs` were closed. -/
structure Closes (fs : List Forwarder) (s s' : Server) : Prop where
  strays : s'.strays = s.strays
  lines : s'.lines = s.lines
  nextId : s'.station.registry.nextId = s.station.registry.nextId
  boxes : s'.station.board.board.boxes.length = s.station.board.board.boxes.length
  waiting : ∀ i, ∀ n ∈ s'.station.board.board.waiting i, n ∈ s.station.board.board.waiting i
  holds : ∀ {id box d}, (∀ f ∈ fs, f.feed ≠ .session box) → s.station.board.Holds id box d →
    s'.station.board.Holds id box d

theorem closes_closeFeed (s : Server) (f : Forwarder) : Closes [f] s (s.closeFeed f.feed) := by
  obtain ⟨feed, line⟩ := f
  cases feed with
  | session i =>
      refine ⟨rfl, rfl, rfl, NoticeBoard.length_close _ i,
        fun _ _ => NoticeBoard.mem_waiting_close, fun {id box d} hfs hholds e hentry => ?_⟩
      have hne : i ≠ box := fun hsame => hfs _ List.mem_cons_self (congrArg Feed.session hsame)
      exact (hholds e hentry).close_other hne
  | parameters i => exact ⟨rfl, rfl, rfl, rfl, fun _ _ hn => hn, fun _ hholds => hholds⟩

theorem closes_foldl (fs : List Forwarder) (s : Server) :
    Closes fs s (fs.foldl (fun s f => s.closeFeed f.feed) s) := by
  induction fs generalizing s with
  | nil => exact ⟨rfl, rfl, rfl, rfl, fun _ _ hn => hn, fun _ hholds => hholds⟩
  | cons f fs ih =>
      have hhead := closes_closeFeed s f
      have htail := ih (s.closeFeed f.feed)
      exact ⟨htail.strays.trans hhead.strays, htail.lines.trans hhead.lines,
        htail.nextId.trans hhead.nextId, htail.boxes.trans hhead.boxes,
        fun i n hn => hhead.waiting i n (htail.waiting i n hn),
        fun hfs hholds => htail.holds (fun g hg => hfs g (List.mem_cons_of_mem _ hg))
          (hhead.holds (fun g hg => hfs g (by simp_all)) hholds)⟩

/-- The forwarders that a connection takes with it when it goes. -/
def ownForwarders (s : Server) (conn : Nat) : List Forwarder :=
  ((s.links.get? conn).map (·.forwarders)).getD []

theorem mem_ownForwarders (h : f ∈ s.ownForwarders conn) :
    ∃ link, s.links.get? conn = some link ∧ f ∈ link.forwarders := by
  unfold ownForwarders at h
  cases hlink : s.links.get? conn with
  | none =>
      rw [hlink] at h
      cases h
  | some link =>
      rw [hlink] at h
      exact ⟨link, rfl, h⟩

theorem closes_disconnect (s : Server) (conn : Nat) :
    Closes (s.ownForwarders conn) s (s.disconnect conn) := by
  have h := closes_foldl (s.ownForwarders conn) s
  refine ⟨h.strays, h.lines, ?_, h.boxes, h.waiting, h.holds⟩
  show (Registry.reap _).2.nextId = _
  rw [Registry.nextId_reap, Registry.nextId_abandons]
  exact h.nextId

theorem erase_disconnect (s : Server) (conn : Nat) :
    (s.disconnect conn).links = s.links.erase conn := by
  have hlinks (fs : List Forwarder) (s : Server) :
      (fs.foldl (fun s f => s.closeFeed f.feed) s).links = s.links := by
    induction fs generalizing s with
    | nil => rfl
    | cons f fs ih =>
        exact (ih _).trans (s.links_closeFeed f.feed)
  exact congrArg (Table.erase · conn) (hlinks _ s)

theorem mem_forwarders :
    f ∈ s.forwarders ↔ f ∈ s.strays ∨ ∃ e ∈ s.links.toList, f ∈ e.2.forwarders := by
  simp only [forwarders, List.mem_append, List.mem_flatMap, Table.values, List.mem_map,
    exists_exists_and_eq_and]

theorem mem_links_of_get? {link : Link} (h : s.links.get? conn = some link) :
    (conn, link) ∈ s.links.toList :=
  Table.get?_eq_some_iff.mp h

/-- All that waits is of sessions that were made, and all that is forwarded comes from inboxes
that were made. -/
structure Wired (s : Server) : Prop where
  accounted : s.Accounted
  dated : s.station.board.board.Dated s.station.registry.nextId
  made : ∀ f ∈ s.forwarders, ∀ box, f.feed = .session box →
    box < s.station.board.board.boxes.length

theorem Wired.later (h : s.Wired) (haccounted : s'.Accounted)
    (hdated : s'.station.board.board.Dated s'.station.registry.nextId)
    (hboxes : s.station.board.board.boxes.length ≤ s'.station.board.board.boxes.length)
    (hforwarders : ∀ f ∈ s'.forwarders, f ∈ s.forwarders ∨
      ∀ box, f.feed = .session box → box < s'.station.board.board.boxes.length) : s'.Wired where
  accounted := haccounted
  dated := hdated
  made := by
    intro f hf box hfeed
    rcases hforwarders f hf with hf | hmade
    · exact Nat.lt_of_lt_of_le (h.made f hf box hfeed) hboxes
    · exact hmade box hfeed

/-- From `s` to `s'` nothing was added to what leads to the lines, and all backlogs are kept. -/
structure Maintains (s s' : Server) : Prop where
  links : s'.links = s.links
  strays : s'.strays = s.strays
  lines : s'.lines = s.lines
  nextId : s.station.registry.nextId ≤ s'.station.registry.nextId
  boxes : s'.station.board.board.boxes.length = s.station.board.board.boxes.length
  dated : s.station.board.board.Dated s.station.registry.nextId →
    s'.station.board.board.Dated s'.station.registry.nextId
  holds : ∀ {id box d}, s.station.board.Holds id box d → s'.station.board.Holds id box d

theorem Alike.maintains (h : s.Alike s') : s.Maintains s' where
  links := h.links
  strays := h.strays
  lines := h.lines
  nextId := h.nextId
  boxes := by rw [h.board]
  dated hdated := by
    rw [h.board]
    exact hdated.mono h.nextId
  holds hholds := by
    rw [h.board]
    exact hholds

theorem Accounted.maintains_change (h : s.Accounted) : s.Maintains (s.withStep .change) := by
  have hnumbered := h.registry.numbered
  show s.Maintains { s with station := s.station.nextChange.2 }
  unfold Station.nextChange
  split
  · exact (Alike.refl s).maintains
  · rename_i change later hchanges
    have hnext := (s.station.board.handleChange_goesOn hnumbered s.station.roster
      change).nextId
    exact {
      links := rfl
      strays := rfl
      lines := rfl
      nextId := hnext.ge
      boxes := Switchboard.length_handleChange hnumbered _ change
      dated := fun hdated => by
        show NoticeBoard.Dated _ (s.station.board.handleChange _ _ change).2.2.nextId
        rw [hnext]
        exact h.board.dated_handleChange hnumbered hdated _ change
      holds := fun hholds => hholds.handleChange h.board hnumbered _ change }

theorem Accounted.maintains_event (h : s.Accounted) : s.Maintains (s.withStep .event) := by
  show s.Maintains { s with station := s.station.nextEvent.2 }
  unfold Station.nextEvent
  split
  · exact (Alike.refl s).maintains
  · rename_i event later hevents
    exact {
      links := rfl
      strays := rfl
      lines := rfl
      nextId := Nat.le_refl _
      boxes := Switchboard.length_handleEvent _ event
      dated := fun hdated => h.board.dated_handleEvent h.registry.numbered hdated event
      holds := fun hholds => hholds.handleEvent h.board.board event }

theorem Wired.maintains (h : s.Wired) (haccounted : s'.Accounted) (hs : s.Maintains s') :
    s'.Wired := by
  refine h.later haccounted (hs.dated h.dated) hs.boxes.ge fun f hf => ?_
  rw [mem_forwarders, hs.links, hs.strays, ← mem_forwarders] at hf
  exact .inl hf

theorem mem_forwarders_connect (hf : f ∈ (s.connect conn).2.forwarders) :
    f ∈ s.forwarders ∨ ∃ box, f.feed = .parameters box := by
  rcases mem_forwarders.mp hf with hf | ⟨e, he, hf⟩
  · rcases List.mem_append.mp hf with hf | hf
    · exact .inl (mem_forwarders.mpr (.inl hf))
    · have hf : f ∈ s.ownForwarders conn := hf
      obtain ⟨link, hlink, hf⟩ := mem_ownForwarders hf
      exact .inl (mem_forwarders.mpr (.inr ⟨_, mem_links_of_get? hlink, hf⟩))
  · rcases Table.mem_put he with rfl | he
    · rw [List.mem_singleton] at hf
      exact .inr ⟨_, congrArg Forwarder.feed hf⟩
    · exact .inl (mem_forwarders.mpr (.inr ⟨e, he, hf⟩))

theorem Wired.connect (h : s.Wired) (conn : Nat) : (s.connect conn).2.Wired := by
  refine h.later (h.accounted.connect conn).accounted h.dated (Nat.le_refl _) fun f hf => ?_
  rcases mem_forwarders_connect hf with hf | ⟨i, hfeed⟩
  · exact .inl hf
  · refine .inr fun box hbox => ?_
    rw [hfeed] at hbox
    cases hbox

theorem mem_forwarders_disconnect (hf : f ∈ (s.disconnect conn).forwarders) : f ∈ s.forwarders := by
  rw [mem_forwarders, (closes_disconnect s conn).strays, erase_disconnect] at hf
  rcases hf with hf | ⟨e, he, hf⟩
  · exact mem_forwarders.mpr (.inl hf)
  · exact mem_forwarders.mpr (.inr ⟨e, (List.mem_filter.mp he).1, hf⟩)

theorem Wired.disconnect (h : s.Wired) (conn : Nat) : (s.disconnect conn).Wired := by
  have hcloses := closes_disconnect s conn
  refine h.later (h.accounted.disconnect conn).1.accounted ?_ hcloses.boxes.ge
    fun f hf => .inl (mem_forwarders_disconnect hf)
  rw [hcloses.nextId]
  exact fun i n hn => h.dated i n (hcloses.waiting i n hn)

/-- From `s` to `s'` a session was made, routed to `d` and given to a connection. -/
structure Gives (s s' : Server) (conn : Nat) (d : Device) : Prop where
  nextId : s'.station.registry.nextId = s.station.registry.nextId + 1
  owned : s.station.registry.nextId ∈ s'.sessionsOf conn
  strays : s'.strays = s.strays
  lines : s'.lines = s.lines
  boxes : s'.station.board.board.boxes.length = s.station.board.board.boxes.length + 1
  waiting : ∀ i, ∀ n ∈ s'.station.board.board.waiting i, n ∈ s.station.board.board.waiting i
  holds : ∀ {id box d}, id ≠ s.station.registry.nextId →
    box < s.station.board.board.boxes.length → s.station.board.Holds id box d →
    s'.station.board.Holds id box d
  /-- Without a link nobody is told of the new session. -/
  links : s.links.get? conn = none ∧ s'.links = s.links ∨
    ∃ link, s.links.get? conn = some link ∧
      s'.links = s.links.put conn { link with forwarders :=
        link.forwarders ++ [⟨.session s.station.board.board.boxes.length, link.line⟩] } ∧
      s'.station.board.Holds s.station.registry.nextId s.station.board.board.boxes.length d

/-- A session that is made is given to its connection under the next number. -/
theorem Wired.createSession_cases (h : s.Wired) (conn : Nat) (config : StreamConfig) :
    (∃ e, (s.createSession conn config).1 = .error e) ∧ s.Alike (s.createSession conn config).2 ∨
    ∃ d, (s.createSession conn config).1 = .ok (.session (.ofNat s.station.registry.nextId) d) ∧
      s.Gives (s.createSession conn config).2 conn d := by
  refine (s.createSession_cases conn config).imp_right ?_
  rintro ⟨reg, session, decision, box, st, hid, hok, hboard, hnext, hmade⟩
  obtain ⟨rfl, hboxes⟩ := Switchboard.register_box hok
  have hnew : ∀ i, ∀ n ∈ s.station.board.board.waiting i, n.sessionId ≠ session.id := by
    intro i n hn hsame
    exact absurd (h.dated i n hn) (by rw [hsame, hid]; exact Nat.lt_irrefl _)
  have hown := Switchboard.holds_register hnew hok
  have hothers {id box : Nat} {d : Device} (hne : id ≠ s.station.registry.nextId)
      (hholds : s.station.board.Holds id box d) : st.board.Holds id box d := by
    rw [hboard]
    exact hholds.register h.accounted.board.board (fun hsame => hne (hsame ▸ hid)) _ _
  have hwaiting (i : Nat) (n : SessionNotice) (hn : n ∈ st.board.board.waiting i) :
      n ∈ s.station.board.board.waiting i := by
    rw [hboard] at hn
    exact Switchboard.mem_waiting_register hn
  rw [← hboard] at hown hboxes
  rw [hid] at hown hmade
  have howned := mem_sessionsOf_adopt { s with station := st } conn s.station.registry.nextId
    s.station.board.board.boxes.length
  refine ⟨decision.device, by rw [hmade], ?_⟩
  rw [hmade]
  unfold adopt at howned ⊢
  dsimp only at howned ⊢
  cases hlink : s.links.get? conn with
  | none =>
      rw [hlink] at howned
      refine ⟨hnext, howned, rfl, rfl, ?_, fun i n hn => hwaiting i n ?_, fun hne hlt hholds => ?_,
        .inl ⟨hlink, rfl⟩⟩
      · exact (NoticeBoard.length_close _ _).trans hboxes
      · exact NoticeBoard.mem_waiting_close hn
      · exact fun e he => (hothers hne hholds e he).close_other (Nat.ne_of_gt hlt)
  | some link =>
      rw [hlink] at howned
      exact ⟨hnext, howned, rfl, rfl, hboxes, hwaiting, fun hne _ hholds => hothers hne hholds,
        .inr ⟨link, hlink, rfl, hown⟩⟩

/-- A forwarder after the making of a session is an old one or that of the session. -/
theorem Gives.mem_forwarders (h : s.Gives s' conn d) (hf : f ∈ s'.forwarders) :
    f ∈ s.forwarders ∨ ∃ link, s.links.get? conn = some link ∧
      f = ⟨.session s.station.board.board.boxes.length, link.line⟩ := by
  rcases Server.mem_forwarders.mp hf with hf | ⟨e, he, hf⟩
  · rw [h.strays] at hf
    exact .inl (Server.mem_forwarders.mpr (.inl hf))
  · rcases h.links with ⟨-, hlinks⟩ | ⟨link, hlink, hlinks, -⟩
    · rw [hlinks] at he
      exact .inl (Server.mem_forwarders.mpr (.inr ⟨e, he, hf⟩))
    · rw [hlinks] at he
      rcases Table.mem_put he with rfl | he
      · rcases List.mem_append.mp hf with hf | hf
        · exact .inl (Server.mem_forwarders.mpr (.inr ⟨_, mem_links_of_get? hlink, hf⟩))
        · exact .inr ⟨link, hlink, List.mem_singleton.mp hf⟩
      · exact .inl (Server.mem_forwarders.mpr (.inr ⟨e, he, hf⟩))

theorem Wired.request (h : s.Wired) (hlinked : s.links.has conn) (r : Wire.Request) :
    (s.handle conn r).2.Wired := by
  have haccounted := (h.accounted.request hlinked r).accounted
  by_cases hcreate : ∃ config, r = .createSession config
  · obtain ⟨config, rfl⟩ := hcreate
    rcases h.createSession_cases conn config with ⟨-, halike⟩ | ⟨d, -, hgives⟩
    · exact h.maintains haccounted halike.maintains
    · refine h.later haccounted ?_ (hgives.boxes ▸ Nat.le_succ _) fun f hf => ?_
      · show NoticeBoard.Dated _ (s.createSession conn config).2.station.registry.nextId
        rw [hgives.nextId]
        exact fun i n hn => Nat.lt_succ_of_lt (h.dated i n (hgives.waiting i n hn))
      · refine (hgives.mem_forwarders hf).imp_right ?_
        rintro ⟨link, -, rfl⟩ box hbox
        cases hbox
        exact hgives.boxes ▸ Nat.lt_succ_self _
  · have halike := alike_handle s conn fun config hr => hcreate ⟨config, hr⟩
    exact h.maintains haccounted halike.maintains

theorem Wired.withLines (h : s.Wired) (lines : Inboxes Notification) :
    Wired { s with lines := lines } :=
  ⟨(h.accounted.steady (s.steady_withLines lines)).accounted, h.dated, h.made⟩

theorem Wired.closeFeed (h : s.Wired) (f : Forwarder) : (s.closeFeed f.feed).Wired := by
  have hsteady := s.steady_closeFeed f.feed
  have hcloses := closes_closeFeed s f
  refine h.later (h.accounted.steady hsteady).accounted ?_ hsteady.boxes.ge fun g hg => .inl ?_
  · rw [hcloses.nextId]
    exact fun i n hn => h.dated i n (hcloses.waiting i n hn)
  · exact s.forwarders_closeFeed f.feed ▸ hg

theorem Wired.dropFirst (h : s.Wired) (feed : Feed) : (s.dropFirst feed).Wired := by
  have hsteady := s.steady_dropFirst feed
  refine h.later (h.accounted.steady hsteady).accounted ?_ hsteady.boxes.ge fun g hg => .inl ?_
  · cases feed with
    | session box => exact fun i n hn => h.dated i n (NoticeBoard.mem_waiting_dropFirst hn)
    | parameters box => exact h.dated
  · exact s.forwarders_dropFirst feed ▸ hg

theorem Wired.pass (h : s.Wired) (f : Forwarder) : (s.pass f).Wired := by
  cases hfed : s.fed f.feed with
  | nil => rwa [pass_of_fed_nil hfed]
  | cons n rest =>
      by_cases hopen : s.lines.isOpen f.line
      · rw [pass_of_isOpen hfed hopen]
        exact (h.dropFirst f.feed).withLines _
      · rw [pass_of_not_isOpen hfed hopen]
        exact h.closeFeed f

theorem Wired.forward (h : s.Wired) (f : Forwarder) : (s.forward f).Wired := by
  rw [forward_eq_iterate]
  generalize (s.fed f.feed).length = n
  induction n generalizing s with
  | zero => exact h
  | succ n ih => exact ih (h.pass f)

/-- Whatever happens, all that waits is of sessions that were made. -/
theorem Wired.step (h : s.Wired) (t : ServerStep) : (s.step t).Wired := by
  have haccounted := (h.accounted.step t).accounted
  cases t with
  | connect conn => exact h.connect conn
  | disconnect conn => exact h.disconnect conn
  | request conn r =>
      show Wired (if s.isLinked conn then (s.handle conn r).2 else s)
      split
      · rename_i hlinked
        exact h.request hlinked r
      · exact h
  | devices t =>
      cases t <;> exact h.maintains haccounted
        (Alike.maintains ⟨rfl, rfl, rfl, rfl, Nat.le_refl _⟩)
  | change => exact h.maintains haccounted h.accounted.maintains_change
  | event => exact h.maintains haccounted h.accounted.maintains_event
  | share id m =>
      exact h.maintains haccounted (Alike.maintains ⟨rfl, rfl, rfl, rfl, Nat.le_refl _⟩)
  | forward =>
      show Wired (s.forwarders.foldl Server.forward s)
      generalize s.forwarders = fs
      clear haccounted
      induction fs generalizing s with
      | nil => exact h
      | cons f fs ih => exact ih (h.forward f)
  | readLine line | closeLine line => exact h.withLines _

theorem Wired.run (h : s.Wired) (steps : List ServerStep) : (s.run steps).Wired := by
  induction steps generalizing s with
  | nil => exact h
  | cons t steps ih => exact ih (h.step t)

end Server
end Patchbay
