import Mathlib.Data.List.Induction
import Patchbay.Daemon
import Patchbay.Proofs.Server.Owners
import Patchbay.Proofs.Station.Notices

/-!
# Runs of a server

Connections come, make requests and go, devices change, peers write to the rings that they have
mapped, and changes and ends of sessions are handled as late as one likes. Nothing of a session
is left behind: what is kept of it in one place is kept in all of them, and all of it is gone
when its connection is.
-/
namespace Patchbay

inductive ServerStep where
  | connect (conn : Nat)
  | disconnect (conn : Nat)
  /-- A connection that has come and not gone makes a request. -/
  | request (conn : Nat) (r : Wire.Request)
  | devices (t : RosterStep)
  /-- The next device change is handled. -/
  | change
  /-- The next end of a session is handled. -/
  | event
  /-- Peers leave the memory of a ring like this. -/
  | share (id : Nat) (m : Memory)
  /-- All that waits is forwarded. -/
  | forward
  | readLine (line : Nat)
  | closeLine (line : Nat)

namespace Server

/-- A server that nobody has connected to yet. -/
structure Unused (s : Server) : Prop where
  station : s.station.Unused
  owners : s.owners = ∅
  links : s.links = ∅

/-- A step that concerns the station alone. -/
def withStep (s : Server) (t : StationStep) : Server :=
  { s with station := s.station.step t }

def step (s : Server) : ServerStep → Server
  | .connect conn => (s.connect conn).2
  | .disconnect conn => s.disconnect conn
  | .request conn r => if s.isLinked conn then (s.handle conn r).2 else s
  | .devices t => s.withStep (.devices t)
  | .change => s.withStep .change
  | .event => s.withStep .event
  | .share id m =>
    let share (session : Session) : Session :=
      { session with ring := { session.ring with memory := m } }
    { s with station := { s.station with registry := s.station.registry.modify id share } }
  | .forward => s.forwardAll
  | .readLine line => (s.takeLine line).2
  | .closeLine line => s.closeLine line

def run (s : Server) (steps : List ServerStep) : Server :=
  steps.foldl step s

theorem run_append (s : Server) (steps more : List ServerStep) :
    s.run (steps ++ more) = (s.run steps).run more :=
  List.foldl_append

variable {s : Server} {conn id : Nat}

theorem unused_of_start {known : List RouteRule} {now : UInt64} {process : String}
    {files : FileTree} {settings : Settings} {d : Daemon}
    (h : (Daemon.start known now process files settings).1 = .ok d) :
    d.exchange.server.Unused := by
  unfold Daemon.start at h
  cases hstation : Station.ofSettings known now
      (some ⟨settings.access.bufferDir, process⟩) settings with
  | error e =>
      rw [hstation] at h
      cases h
  | ok station =>
      rw [hstation] at h
      dsimp only at h
      split at h
      · cases h
      · split at h
        · cases h
        · cases h
          exact ⟨(Station.unused_ofSettings hstation).settle, rfl, rfl⟩

theorem Unused.accounted (h : s.Unused) : s.Accounted := by
  obtain ⟨hstation, howners, -⟩ := h
  have hregistry : s.station.registry.Accounted := by
    rw [hstation.registry]
    exact Registry.accounted_empty
  have hlisted : s.station.registry.listed = [] := by rw [hstation.registry]
  exact {
    registry := hregistry
    board := hstation.attended.board
    registered := by
      rw [hlisted]
      exact fun id hid => absurd hid List.not_mem_nil
    owned := by
      rw [hlisted]
      refine SharedOut.nothing fun conn => ?_
      rw [sessionsOf, howners]
      rfl
    linked := by
      intro conn hconn
      rw [howners] at hconn
      cases hconn }

/-- A change of devices moves sessions, but each that lives stays registered. -/
theorem Accounted.change (h : s.Accounted) : s.Keeps (s.withStep .change) := by
  show s.Keeps { s with station := s.station.nextChange.2 }
  unfold Station.nextChange
  split
  · exact h.steady (.refl s)
  · rename_i change later hchanges
    have hgoes := s.station.board.handleChange_goesOn h.registry.numbered
      s.station.roster change
    have hreg := h.registry.goesOn hgoes
    constructor
    · exact {
        h with
        registry := hreg
        board := h.board.handleChange h.registry.numbered s.station.roster change
        registered := by
          intro id hid
          obtain ⟨session, hsession, hlive⟩ := hreg.mem_listed.mp hid
          dsimp only at hid
          rw [hgoes.listed] at hid
          obtain ⟨e, hentry⟩ := h.registered id hid
          exact Switchboard.handleChange_keeps h.registry.numbered s.station.roster change hentry
            hsession hlive
        owned := by
          dsimp only
          rw [hgoes.listed]
          exact h.owned }
    · exact fun id hend =>
        (hgoes.tells h.registry.numbered h.registry.heard).announces.ended hend
    · exact fun conn id hid => Or.inl hid

/-- The end of a session is handled after the session has gone off the list. -/
theorem Accounted.event (h : s.Accounted) : s.Keeps (s.withStep .event) := by
  show s.Keeps { s with station := s.station.nextEvent.2 }
  unfold Station.nextEvent
  split
  · exact h.steady (.refl s)
  · rename_i event later hevents
    constructor
    · exact {
        h with
        registry := { h.registry with
          announced := fun e he => h.registry.announced e (hevents ▸ List.mem_cons_of_mem _ he) }
        board := h.board.handleEvent hevents
        registered := by
          intro id hid
          obtain ⟨e, hentry⟩ := h.registered id hid
          refine ⟨e, ?_⟩
          show (s.station.board.handleEvent event).entries.get? id = some e
          unfold Switchboard.handleEvent
          split
          · rw [Switchboard.entries_tearDown, Table.get?_erase, if_neg]
            · exact hentry
            · intro hsame
              obtain ⟨session, hsession, hend⟩ :=
                h.registry.announced event (hevents ▸ List.mem_cons_self)
              rw [eq_of_beq hsame] at hsession
              exact h.registry.ended id hid session hsession hend
          · exact hentry }
    · exact fun id hend => hend
    · exact fun conn id hid => Or.inl hid

theorem Accounted.request (h : s.Accounted) (hlinked : s.links.has conn) (r : Wire.Request) :
    s.Keeps (s.handle conn r).2 := by
  by_cases hcreate : ∃ config, r = .createSession config
  · obtain ⟨config, rfl⟩ := hcreate
    exact (h.createSession hlinked config).1
  · by_cases hrelease : ∃ id, r = .release id
    · obtain ⟨id, rfl⟩ := hrelease
      exact h.release conn id.toNat
    · exact h.steady (steady_handle h.registry.numbered conn
        (fun config hr => hcreate ⟨config, hr⟩) (fun id hr => hrelease ⟨id, hr⟩))

theorem Accounted.step (h : s.Accounted) (t : ServerStep) : s.Keeps (s.step t) := by
  cases t with
  | connect conn => exact h.connect conn
  | disconnect conn => exact (h.disconnect conn).1
  | request conn r =>
      show s.Keeps (if s.isLinked conn then (s.handle conn r).2 else s)
      split
      · rename_i hlinked
        exact h.request hlinked r
      · exact h.steady (.refl s)
  | devices t => cases t <;> exact h.steady (steady_of_station (.refl _) rfl)
  | change => exact h.change
  | event => exact h.event
  | share id m =>
      refine h.steady (steady_of_station ?_ rfl)
      exact s.station.registry.modify_goesOn id fun session => ⟨rfl, rfl, rfl, rfl, rfl⟩
  | forward => exact h.steady (Steady.foldl steady_forward s.forwarders s)
  | readLine line | closeLine line => exact h.steady (s.steady_withLines _)

theorem Accounted.run (h : s.Accounted) (steps : List ServerStep) : s.Keeps (s.run steps) := by
  induction steps generalizing s with
  | nil => exact h.steady (.refl s)
  | cons t rest ih =>
      have hstep := h.step t
      exact hstep.trans (ih hstep.accounted)

theorem links_handle (hr : s.station.registry.Numbered) (conn : Nat) (r : Wire.Request)
    (conn' : Nat) : (s.handle conn r).2.links.has conn' = s.links.has conn' := by
  by_cases hcreate : ∃ config, r = .createSession config
  · obtain ⟨config, rfl⟩ := hcreate
    exact s.links_createSession conn config conn'
  · by_cases hrelease : ∃ id, r = .release id
    · obtain ⟨id, rfl⟩ := hrelease
      show (s.release conn id.toNat).2.links.has conn' = _
      unfold Server.release
      split <;> rfl
    · exact (steady_handle hr conn (fun config hr => hcreate ⟨config, hr⟩)
        (fun id hr => hrelease ⟨id, hr⟩)).links conn'

theorem links_disconnect (s : Server) (conn conn' : Nat) :
    (s.disconnect conn).links.has conn' = (!(conn == conn') && s.links.has conn') := by
  unfold Server.disconnect
  dsimp only
  rw [Table.has_erase]
  exact congrArg _ ((Steady.foldl (fun s (f : Forwarder) => steady_closeFeed s f.feed) _ s).links
    conn')

/-- Connections are linked by coming and unlinked by going, and nothing else. -/
theorem links_step (hr : s.station.registry.Numbered) (t : ServerStep) (conn : Nat) :
    (s.step t).links.has conn → t = .connect conn ∨
      s.links.has conn ∧ t ≠ .disconnect conn := by
  have hsame : (s.step t).links.has conn = s.links.has conn → (∀ conn, t ≠ .disconnect conn) →
      (s.step t).links.has conn → t = .connect conn ∨ s.links.has conn ∧ t ≠ .disconnect conn :=
    fun hlinks hstays hconn => Or.inr ⟨hlinks ▸ hconn, hstays conn⟩
  cases t with
  | connect conn' =>
      intro hconn
      have hput : (s.links.put conn' _).has conn = true := hconn
      rw [Table.has_put, Bool.or_eq_true, beq_iff_eq] at hput
      rcases hput with rfl | hconn
      · exact Or.inl rfl
      · exact Or.inr ⟨hconn, by simp⟩
  | disconnect conn' =>
      intro hconn
      have herase := (s.links_disconnect conn' conn).symm.trans hconn
      rw [Bool.and_eq_true, Bool.not_eq_true', beq_eq_false_iff_ne] at herase
      refine Or.inr ⟨herase.2, ?_⟩
      rintro hdisconnect
      cases hdisconnect
      exact herase.1 rfl
  | request conn' r =>
      refine hsame ?_ fun _ => by simp
      show (if s.isLinked conn' then (s.handle conn' r).2 else s).links.has conn = _
      split
      · exact links_handle hr conn' r conn
      · rfl
  | devices t => exact hsame (by cases t <;> rfl) fun _ => by simp
  | change => exact hsame rfl fun _ => by simp
  | event => exact hsame rfl fun _ => by simp
  | share id m => exact hsame rfl fun _ => by simp
  | forward =>
      exact hsame ((Steady.foldl steady_forward s.forwarders s).links conn) fun _ => by simp
  | readLine line => exact hsame rfl fun _ => by simp
  | closeLine line => exact hsame rfl fun _ => by simp

theorem connected_of_linked (h : s.Accounted) (hnone : ¬ s.links.has conn)
    (steps : List ServerStep) (hlinked : (s.run steps).links.has conn) :
    ∃ early late, steps = early ++ .connect conn :: late ∧ .disconnect conn ∉ late := by
  induction steps using List.reverseRecOn with
  | nil => exact absurd hlinked hnone
  | append_singleton steps t ih =>
      rw [run_append] at hlinked
      have hnumbered := (h.run steps).accounted.registry.numbered
      rcases links_step hnumbered t conn hlinked with rfl | ⟨hbefore, hstays⟩
      · exact ⟨steps, [], rfl, List.not_mem_nil⟩
      · obtain ⟨early, late, rfl, hlate⟩ := ih hbefore
        refine ⟨early, late ++ [t], by simp, ?_⟩
        rw [List.mem_append, not_or, List.mem_singleton]
        exact ⟨hlate, Ne.symm hstays⟩

/-- A session that a connection made has ended when the connection has gone. -/
theorem Accounted.ended_of_disconnect (h : s.Accounted) (hlinked : s.links.has conn)
    {config : StreamConfig} {n : UInt64} {d : Device}
    (hmade : (s.handle conn (.createSession config)).1 = .ok (.session n d))
    (late more : List ServerStep) :
    let s' := s.run (.request conn (.createSession config) :: late ++ .disconnect conn :: more)
    n = UInt64.ofNat s.station.registry.nextId ∧
      s'.station.registry.Ended s.station.registry.nextId := by
  intro s'
  obtain ⟨hcreate, hown⟩ := h.createSession hlinked config
  obtain ⟨hn, hid⟩ := hown n d hmade
  refine ⟨hn, ?_⟩
  have hstep : s.step (.request conn (.createSession config)) =
      (s.createSession conn config).2 := if_pos hlinked
  have hlate := hcreate.accounted.run late
  have hdisconnect := (hlate.accounted.disconnect conn).1
  have hmore := hdisconnect.accounted.run more
  have hs' : s' = (((s.createSession conn config).2.run late).disconnect conn).run more := by
    show (s.step (.request conn (.createSession config))).run
      (late ++ .disconnect conn :: more) = _
    rw [hstep, run_append]
    rfl
  rw [hs']
  refine hmore.ended _ ?_
  rcases hlate.owned conn _ hid with hid | hend
  · exact hlate.accounted.ended_disconnect hid
  · exact hdisconnect.ended _ hend

/-- With nobody connected and no event left nothing is kept of any session. -/
theorem Accounted.empty (h : s.Accounted) (hlinks : s.links = ∅)
    (hevents : s.station.registry.events = []) :
    s.station.registry.listed = [] ∧ s.station.registry.handles.entries = ∅ ∧ s.owners = ∅ ∧
      s.station.board.entries = ∅ ∧ s.station.board.board.readers = ∅ := by
  have howners : s.owners = ∅ := by
    refine Table.eq_empty_of_not_has fun conn howns => ?_
    have hlinked := h.linked conn howns
    rw [hlinks] at hlinked
    cases hlinked
  have hlisted : s.station.registry.listed = [] := by
    refine List.eq_nil_iff_forall_not_mem.mpr fun id hid => ?_
    obtain ⟨conn, hid⟩ := (h.owned.covers id).mp hid
    rw [sessionsOf, howners] at hid
    cases hid
  have hended : ∀ id session, s.station.registry.any? id = some session → session.isTerminal := by
    intro id session hsession
    refine Decidable.byContradiction fun hlive => ?_
    have hid := h.registry.live id session hsession hlive
    rw [hlisted] at hid
    cases hid
  have hentries : s.station.board.entries = ∅ := by
    refine Table.eq_empty_of_not_has fun id hhas => ?_
    obtain ⟨e, hentry⟩ := (Table.has_iff _ _).mp hhas
    obtain ⟨session, hsession, howes⟩ := h.board.sessions id e hentry
    obtain ⟨event, hevent, -⟩ := howes (hended id session hsession)
    rw [hevents] at hevent
    cases hevent
  refine ⟨hlisted, ?_, howners, hentries, ?_⟩
  · refine Table.eq_empty_of_not_has fun x hhas => ?_
    rw [← Table.mem_keys_iff, h.registry.handles] at hhas
    obtain ⟨id, session, hsession, hlive, -⟩ := hhas
    exact hlive (hended id session hsession)
  · refine Table.eq_empty_of_not_has fun id hhas => ?_
    obtain ⟨box, hreader⟩ := (Table.has_iff _ _).mp hhas
    obtain ⟨e, hentry⟩ := h.board.readers id box hreader
    rw [hentries] at hentry
    cases hentry

end Server

/-- No session leaks. Whatever connections, devices and peers do, the listed sessions are those
in the lists of their owners, each in one list and once, and those whose handles are in the table.
Each listed session is registered, and an event waits for every other that still is. When a
connection has gone, so has all of each session it made but the session itself, and when all
have gone and no event waits, every table is empty. -/
theorem no_session_leaks {s : Server} (hs : s.Unused) (steps : List ServerStep) :
    let t := s.run steps
    let registry := t.station.registry
    let board := t.station.board
    (registry.listed.Nodup ∧ (∀ id, id ∈ registry.listed ↔ ∃ conn, id ∈ t.sessionsOf conn) ∧
      (∀ conn, (t.sessionsOf conn).Nodup) ∧
      ∀ conn conn' id, id ∈ t.sessionsOf conn → id ∈ t.sessionsOf conn' → conn = conn') ∧
    ((∀ id session, registry.any? id = some session →
        (id ∈ registry.listed ↔ registry.handles.entries.has session.handle.id)) ∧
      ∀ h, registry.handles.entries.has h → ∃ session ∈ registry.all, session.handle.id = h) ∧
    ((∀ id ∈ registry.listed, board.entries.has id) ∧
      ∀ id, board.entries.has id → id ∉ registry.listed → registry.Ended id ∧ registry.Owes id) ∧
    (∀ early late more conn config n d,
      steps = early ++ (.request conn (.createSession config) :: late ++ .disconnect conn :: more) →
      (s.run early).isLinked conn →
      ((s.run early).handle conn (.createSession config)).1 = .ok (.session n d) →
      ∃ session, registry.any? (s.run early).station.registry.nextId = some session ∧
        n = UInt64.ofNat session.id ∧ session.isTerminal ∧ session.ring.isReleased ∧
        registry.handles.entries.has session.handle.id = false ∧
        session.id ∉ registry.listed) ∧
    ((∀ early late conn, steps = early ++ .connect conn :: late → .disconnect conn ∈ late) →
      registry.events = [] → registry.listed = [] ∧ registry.handles.entries = ∅ ∧
        t.owners = ∅ ∧ t.links = ∅ ∧ board.entries = ∅ ∧ board.board.readers = ∅) := by
  intro t registry board
  have haccounted := hs.accounted
  have h : t.Accounted := (haccounted.run steps).accounted
  refine ⟨⟨h.registry.distinct, h.owned.covers, h.owned.distinct, h.owned.separate⟩, ⟨?_, ?_⟩,
    ⟨?_, ?_⟩, ?_, ?_⟩
  · intro id session hsession
    rw [← Table.mem_keys_iff, h.registry.mem_handles hsession, h.registry.mem_listed]
    constructor
    · rintro ⟨session', hsession', hlive⟩
      cases hsession.symm.trans hsession'
      exact hlive
    · exact fun hlive => ⟨session, hsession, hlive⟩
  · intro x hx
    obtain ⟨id, session, hsession, hlive, hhandle⟩ :=
      (h.registry.handles x).mp ((Table.mem_keys_iff _ _).mpr hx)
    refine ⟨session, ?_, hhandle⟩
    exact List.mem_filterMap.mpr ⟨id, h.registry.live id session hsession hlive, hsession⟩
  · intro id hid
    exact (Table.has_iff _ _).mpr (h.registered id hid)
  · intro id hhas hunlisted
    obtain ⟨e, hentry⟩ := (Table.has_iff _ _).mp hhas
    obtain ⟨session, hsession, howes⟩ := h.board.sessions id e hentry
    have hend : session.isTerminal := Decidable.byContradiction fun hlive =>
      hunlisted (h.registry.live id session hsession hlive)
    exact ⟨⟨session, hsession, hend⟩, howes hend⟩
  · rintro early late more conn config n d hsteps hlinked hmade
    have hearly := (haccounted.run early).accounted
    obtain ⟨hn, hend⟩ := hearly.ended_of_disconnect hlinked hmade late more
    rw [← Server.run_append, ← hsteps] at hend
    obtain ⟨session, hsession, hid, hgone⟩ := h.registry.gone hend
    rw [← hid] at hn hgone
    exact ⟨session, hsession, hn, hgone⟩
  · intro hgone hevents
    have hlinks : t.links = ∅ := by
      refine Table.eq_empty_of_not_has fun conn hlinked => ?_
      have hnone : ¬ s.links.has conn := by
        rw [hs.links]
        exact Bool.false_ne_true
      obtain ⟨early, late, hsteps, hlate⟩ :=
        Server.connected_of_linked haccounted hnone steps hlinked
      exact hlate (hgone early late conn hsteps)
    obtain ⟨hlisted, hhandles, howners, hentries, hreaders⟩ := h.empty hlinks hevents
    exact ⟨hlisted, hhandles, howners, hlinks, hentries, hreaders⟩

theorem two_clients_leave_nothing :
    let s : Server := { station := .vacant ∅ {} none }
    let config : StreamConfig := ⟨.render .music, {}, 1000, 16, 4⟩
    let steps : List ServerStep :=
      [.connect 1, .connect 2, .request 1 (.createSession config),
        .request 2 (.createSession config), .disconnect 1, .event, .disconnect 2, .event]
    s.Unused ∧ (s.run (steps.take 6)).station.registry.listed = [2] ∧
      (∃ session, (s.run (steps.take 6)).station.registry.any? 1 = some session ∧
        session.isTerminal ∧ session.ring.isReleased) ∧
      (s.run steps).station.registry.listed = [] ∧
      (s.run steps).station.registry.handles.entries = ∅ ∧
      (s.run steps).links = ∅ ∧ (s.run steps).station.board.entries = ∅ := by
  intro s config steps
  have hs : s.Unused := ⟨⟨rfl, rfl⟩, rfl, rfl⟩
  have hlisted : (s.run (steps.take 6)).station.registry.listed = [2] := by decide +kernel
  have hevents : (s.run steps).station.registry.events = [] := by decide +kernel
  have hlinked : (s.run (steps.take 2)).isLinked 1 := by decide +kernel
  have hmade : ((s.run (steps.take 2)).handle 1 (.createSession config)).1 =
      .ok (.session 1 Device.none) := by decide +kernel
  have hgone : ∀ early late conn, steps = early ++ .connect conn :: late →
      .disconnect conn ∈ late := by
    intro early late conn h
    rcases early with _ | ⟨a, _ | ⟨b, early⟩⟩
    · simp only [steps, List.nil_append, List.cons.injEq, ServerStep.connect.injEq] at h
      obtain ⟨rfl, rfl⟩ := h
      simp
    · simp only [steps, List.cons_append, List.nil_append, List.cons.injEq,
        ServerStep.connect.injEq] at h
      obtain ⟨-, rfl, rfl⟩ := h
      simp
    · have hmem : .connect conn ∈ steps.drop 2 := by
        rw [h]
        exact List.mem_append_right early List.mem_cons_self
      simp [steps] at hmem
  have hnext : (s.run (steps.take 2)).station.registry.nextId = 1 := by decide +kernel
  obtain ⟨-, -, -, hended, -⟩ := no_session_leaks hs (steps.take 6)
  obtain ⟨session, hsession, -, hend, hreleased, -⟩ :=
    hended (steps.take 2) [.request 2 (.createSession config)] [.event] 1 config 1 Device.none rfl
      hlinked hmade
  rw [hnext] at hsession
  obtain ⟨-, -, -, -, hempty⟩ := no_session_leaks hs steps
  obtain ⟨hlast, hhandles, -, hlinks, hentries, -⟩ := hempty hgone hevents
  exact ⟨hs, hlisted, ⟨session, hsession, hend, hreleased⟩, hlast, hhandles, hlinks, hentries⟩

end Patchbay
