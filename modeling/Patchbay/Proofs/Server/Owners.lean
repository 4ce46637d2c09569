import Patchbay.Proofs.Route.Registrations
import Patchbay.Proofs.Server.OwnerLists
import Patchbay.Proofs.Server.Steady
import Patchbay.Proofs.Session.Accounts

/-!
# Owners of sessions

A session is made for a connection, which owns it until one of the two ends. The lists of owners
agree with the list of sessions, no session has two owners, and each listed session is registered
to be routed. Every request keeps this, whether it makes a session, ends one or does neither, and
so does the loss of a connection.
-/
namespace Patchbay.Server

/-- Everyone who keeps account of sessions agrees. -/
structure Accounted (s : Server) : Prop where
  registry : s.station.registry.Accounted
  board : s.station.board.Orderly s.station.registry
  registered : ∀ id ∈ s.station.registry.listed, ∃ e, s.station.board.entries.get? id = some e
  owned : SharedOut s.sessionsOf s.station.registry.listed
  /-- Owners are linked. -/
  linked : ∀ conn, s.owners.has conn → s.links.has conn

/-- From `s` to `s'` everyone goes on to agree, and a connection goes on to own its sessions until
they have ended. -/
structure Keeps (s s' : Server) : Prop where
  accounted : s'.Accounted
  ended : ∀ id, s.station.registry.Ended id → s'.station.registry.Ended id
  owned : ∀ conn id, id ∈ s.sessionsOf conn →
    id ∈ s'.sessionsOf conn ∨ s'.station.registry.Ended id

variable {s s' s'' : Server} {conn id : Nat}

theorem Keeps.trans (h : s.Keeps s') (h' : s'.Keeps s'') : s.Keeps s'' where
  accounted := h'.accounted
  ended := fun id hend => h'.ended id (h.ended id hend)
  owned := by
    intro conn id hid
    rcases h.owned conn id hid with hid | hend
    · exact h'.owned conn id hid
    · exact Or.inr (h'.ended id hend)

theorem Accounted.steady (h : s.Accounted) (hst : s.Steady s') : s.Keeps s' where
  accounted :=
    { registry := h.registry.goesOn hst.registry
      board := (h.board.goesOn hst.registry).congr hst.entries hst.readers hst.boxes
      registered := by
        rw [hst.registry.listed, hst.entries]
        exact h.registered
      owned := by
        rw [hst.registry.listed, funext hst.sessionsOf]
        exact h.owned
      linked := by
        intro conn hconn
        rw [hst.owners] at hconn
        rw [hst.links]
        exact h.linked conn hconn }
  ended := fun id hend =>
    (hst.registry.tells h.registry.numbered h.registry.heard).announces.ended hend
  owned := fun conn id hid => Or.inl (by rw [hst.sessionsOf]; exact hid)

theorem mem_of_owned (h : s.owned conn id = .ok ()) : id ∈ s.sessionsOf conn := by
  unfold owned at h
  split at h
  · rename_i hmem
    simpa using hmem
  · cases h

/-- A session that is released goes off the list of its owner, too. -/
theorem Accounted.release (h : s.Accounted) (conn id : Nat) : s.Keeps (s.release conn id).2 := by
  unfold Server.release
  split
  · exact h.steady (.refl s)
  · rename_i howned
    have hid := mem_of_owned howned
    obtain ⟨hregistry, hlisted, hend⟩ := h.registry.remove (h.owned.mem hid)
    have hannounces := (Registry.remove_tells h.registry.numbered h.registry.heard id).announces
    have hof : ∀ conn', sessionsOf { s with
        station := { s.station with registry := (s.station.registry.remove id).2 }
        owners := s.owners.modify conn fun ids => ids.filter (· ≠ id) } conn' =
        if conn = conn' then (s.sessionsOf conn').filter (· ≠ id) else s.sessionsOf conn' :=
      s.sessionsOf_filter conn _
    constructor
    · exact {
        registry := hregistry
        board := h.board.announces hannounces
        registered := by
          intro id' hid'
          dsimp only at hid'
          rw [hlisted] at hid'
          exact h.registered id' (List.mem_filter.mp hid').1
        owned := by
          rw [hlisted, funext hof]
          exact h.owned.drop hid
        linked := by
          intro conn' hconn
          rw [Table.has_modify] at hconn
          exact h.linked conn' hconn }
    · exact fun id' hend' => hannounces.ended hend'
    · intro conn' id' hid'
      rw [hof, h.owned.mem_drop hid]
      by_cases hsame : id' = id
      · exact Or.inr (hsame ▸ hend)
      · exact Or.inl ⟨hid', hsame⟩

/-- A session that was made, and what the registry is when it has its volume. -/
theorem create_attach {reg reg' : Registry} (h : reg.Accounted) {config : StreamConfig}
    {session : Session} (hmade : reg.create config = (.ok session, reg')) (d : VolumeDesk) :
    session.id = reg.nextId ∧ session.id ∉ reg.listed ∧
      (d.attach reg' session.id).Accounted ∧
      (d.attach reg' session.id).listed = reg.listed ++ [session.id] ∧
      reg.Announces (d.attach reg' session.id) ∧
      ∃ t, (d.attach reg' session.id).any? session.id = some t := by
  have hgoes := d.attach_goesOn reg' session.id
  have hcreate := h.create config
  have htells := Registry.create_tells h.numbered h.heard config
  rw [hmade] at hcreate htells
  have hnew : session.id = reg.nextId ∧ reg'.listed = reg.listed ++ [reg.nextId] := by
    rcases reg.create_cases config with ⟨e, files, hcase⟩ | ⟨ring, files, -, hcase⟩
    · rw [hmade] at hcase
      cases hcase
    · rw [hmade] at hcase
      cases hcase
      exact ⟨rfl, rfl⟩
  have hattached := hgoes.tells hcreate.numbered hcreate.heard
  refine ⟨hnew.1, ?_, hcreate.goesOn hgoes, ?_, htells.announces.trans hattached.announces, ?_⟩
  · rw [hnew.1]
    exact h.next_not_mem_listed
  · rw [hgoes.listed, hnew.2, hnew.1]
  · have hlisted : session.id ∈ (d.attach reg' session.id).listed := by
      rw [hgoes.listed, hnew.2, hnew.1]
      exact List.mem_append_right _ (List.mem_singleton_self _)
    exact (hcreate.goesOn hgoes).known _ hlisted

theorem Accounted.fail (h : s.Accounted) {config : StreamConfig} {e : StreamError}
    {reg : Registry} (hmade : s.station.registry.create config = (.error e, reg)) :
    s.Keeps { s with station := { s.station with registry := reg } } := by
  have hcreate := h.registry.create config
  have htells := Registry.create_tells h.registry.numbered h.registry.heard config
  have hlisted : reg.listed = s.station.registry.listed := by
    rcases s.station.registry.create_cases config with
      ⟨e, files, hcase⟩ | ⟨ring, files, -, hcase⟩
    · rw [hmade] at hcase
      cases hcase
      rfl
    · rw [hmade] at hcase
      cases hcase
  rw [hmade] at hcreate htells
  constructor
  · exact {
      h with
      registry := hcreate
      board := h.board.announces htells.announces
      registered := by
        dsimp only
        rw [hlisted]
        exact h.registered
      owned := by
        dsimp only
        rw [hlisted]
        exact h.owned }
  · exact fun id' hend => htells.announces.ended hend
  · exact fun conn' id' hid' => Or.inl hid'

theorem Accounted.refuse (h : s.Accounted) {reg : Registry} (hreg : reg.Accounted)
    (hlisted : reg.listed = s.station.registry.listed ++ [id])
    (hid : id ∉ s.station.registry.listed) (hannounces : s.station.registry.Announces reg)
    {st : Station} (hregistry : st.registry = (reg.remove id).2)
    (hboard : st.board = s.station.board) : s.Keeps { s with station := st } := by
  have hmem : id ∈ reg.listed := by
    rw [hlisted]
    exact List.mem_append_right _ (List.mem_singleton_self id)
  obtain ⟨hremove, hremoved, -⟩ := hreg.remove hmem
  have hafter := hannounces.trans (Registry.remove_tells hreg.numbered hreg.heard id).announces
  rw [← hregistry] at hremove hremoved hafter
  have hback : st.registry.listed = s.station.registry.listed := by
    have hself : [id].filter (· ≠ id) = [] := by simp
    have hothers : s.station.registry.listed.filter (· ≠ id) = s.station.registry.listed := by
      refine List.filter_eq_self.mpr fun id' hid' => decide_eq_true ?_
      rintro rfl
      exact hid hid'
    rw [hremoved, hlisted, List.filter_append, hself, hothers, List.append_nil]
  constructor
  · exact {
      h with
      registry := hremove
      board := by
        rw [hboard]
        exact h.board.announces hafter
      registered := by
        rw [hback, hboard]
        exact h.registered
      owned := by
        rw [hback]
        exact h.owned }
  · exact fun id' hend => hafter.ended hend
  · exact fun conn' id' hid' => Or.inl hid'

/-- A session that was made and routed is given to its connection. -/
theorem Accounted.entrust (h : s.Accounted) (hlinked : s.links.has conn) (st : Station)
    (hreg : st.registry.Accounted)
    (hlisted : st.registry.listed = s.station.registry.listed ++ [id])
    (hid : id ∉ s.station.registry.listed)
    (hannounces : s.station.registry.Announces st.registry)
    (hboard : st.board.Orderly st.registry) {e : RouteEntry}
    (hentries : st.board.entries = s.station.board.entries.put id e) :
    s.Keeps { s with station := st, owners := s.owners.put conn (s.sessionsOf conn ++ [id]) } := by
  have hof : ∀ conn', sessionsOf
      { s with station := st, owners := s.owners.put conn (s.sessionsOf conn ++ [id]) } conn' =
      if conn = conn' then s.sessionsOf conn ++ [id] else s.sessionsOf conn' :=
    s.sessionsOf_put conn _
  constructor
  · exact {
      registry := hreg
      board := hboard
      registered := by
        intro id' hid'
        dsimp only at hid'
        rw [hlisted, List.mem_append, List.mem_singleton] at hid'
        rw [hentries, Table.get?_put]
        split
        · exact ⟨e, rfl⟩
        · rename_i hne
          rcases hid' with hid' | rfl
          · exact h.registered id' hid'
          · exact absurd (beq_self_eq_true _) hne
      owned := by
        rw [hlisted, funext hof]
        exact h.owned.give hid conn
      linked := by
        intro conn' hconn
        rw [Table.has_put, Bool.or_eq_true, beq_iff_eq] at hconn
        rcases hconn with rfl | hconn
        · exact hlinked
        · exact h.linked conn' hconn }
  · exact fun id' hend => hannounces.ended hend
  · intro conn' id' hid'
    rw [hof]
    split
    · rename_i hsame
      exact Or.inl (List.mem_append_left _ (hsame ▸ hid'))
    · exact Or.inl hid'

theorem mem_sessionsOf_adopt (s : Server) (conn id box : Nat) :
    id ∈ (s.adopt conn id box).sessionsOf conn := by
  rw [(steady_adopt s conn id box).sessionsOf, sessionsOf_put, if_pos rfl]
  exact List.mem_append_right _ (List.mem_singleton_self id)

theorem Accounted.adopt (h : s.Accounted) (hlinked : s.links.has conn) (st : Station)
    (hreg : st.registry.Accounted)
    (hlisted : st.registry.listed = s.station.registry.listed ++ [id])
    (hid : id ∉ s.station.registry.listed)
    (hannounces : s.station.registry.Announces st.registry)
    (hboard : st.board.Orderly st.registry) {e : RouteEntry}
    (hentries : st.board.entries = s.station.board.entries.put id e) (box : Nat) :
    s.Keeps ({ s with station := st }.adopt conn id box) ∧
      id ∈ ({ s with station := st }.adopt conn id box).sessionsOf conn := by
  have hgiven := h.entrust hlinked st hreg hlisted hid hannounces hboard hentries
  have hsteady := steady_adopt { s with station := st } conn id box
  exact ⟨hgiven.trans (hgiven.accounted.steady hsteady), mem_sessionsOf_adopt _ conn id box⟩

theorem register_station {st : Station} {t session : Session}
    (h : st.board.Orderly st.registry) (hr : st.registry.Numbered)
    (ht : st.registry.any? session.id = some t) :
    ∃ answer st', st.register session = (answer, st') ∧ st'.board.Orderly st'.registry ∧
      st.registry.GoesOn st'.registry ∧
      match (answer : Except PolicyError (RouteDecision × Nat)) with
      | .error _ => st'.board = st.board
      | .ok (decision, _) => st'.board.entries =
          st.board.entries.put session.id ⟨session.intent, session.config.uid, decision⟩ := by
  obtain ⟨hboard, hgoes⟩ := h.register hr ht st.roster
  exact ⟨_, _, rfl, hboard, hgoes, st.board.entries_register st.roster st.registry session⟩

theorem Accounted.createSession (h : s.Accounted) (hlinked : s.links.has conn)
    (config : StreamConfig) :
    s.Keeps (s.createSession conn config).2 ∧
      ∀ n d, (s.createSession conn config).1 = .ok (.session n d) →
        n = UInt64.ofNat s.station.registry.nextId ∧
        s.station.registry.nextId ∈ (s.createSession conn config).2.sessionsOf conn := by
  unfold Server.createSession
  cases hmade : s.station.registry.create config with
  | mk made registry =>
      cases made with
      | error e => exact ⟨h.fail hmade, fun n d hok => by cases hok⟩
      | ok session =>
          obtain ⟨hnumber, hid, hreg, hlisted, hannounces, t, ht⟩ :=
            create_attach h.registry hmade s.station.desk
          dsimp only
          have hboard : (Station.attach { s.station with registry := registry }
              session.id).board = s.station.board := rfl
          have hregistry : (Station.attach { s.station with registry := registry }
              session.id).registry = s.station.desk.attach registry session.id := rfl
          generalize Station.attach { s.station with registry := registry } session.id = st at *
          rw [← hregistry] at hreg hlisted hannounces ht
          have horderly : st.board.Orderly st.registry := by
            rw [hboard]
            exact h.board.announces hannounces
          obtain ⟨answer, st', hregister, horderly', hgoes, hentries⟩ :=
            register_station horderly hreg.numbered ht
          rw [hregister]
          have hlater := hannounces.trans (hgoes.tells hreg.numbered hreg.heard).announces
          have hlisted' := hgoes.listed.trans hlisted
          rw [hboard] at hentries
          cases answer with
          | error e =>
              exact ⟨h.refuse (hreg.goesOn hgoes) hlisted' hid hlater rfl hentries,
                fun n d hok => by cases hok⟩
          | ok registered =>
              obtain ⟨decision, box⟩ := registered
              dsimp only at hentries ⊢
              obtain ⟨hkeeps, hown⟩ :=
                h.adopt hlinked st' (hreg.goesOn hgoes) hlisted' hid hlater horderly' hentries box
              refine ⟨hkeeps, fun n d hok => ?_⟩
              cases hok
              rw [← hnumber]
              exact ⟨rfl, hown⟩

theorem links_createSession (s : Server) (conn : Nat) (config : StreamConfig) (conn' : Nat) :
    (s.createSession conn config).2.links.has conn' = s.links.has conn' := by
  unfold Server.createSession
  split
  · rfl
  · dsimp only
    split
    · rfl
    · exact (steady_adopt _ _ _ _).links conn'

theorem Accounted.connect (h : s.Accounted) (conn : Nat) : s.Keeps (s.connect conn).2 where
  accounted :=
    { h with
      linked := by
        intro conn' hconn
        show (s.links.put conn _).has conn' = true
        rw [Table.has_put, h.linked conn' hconn, Bool.or_true] }
  ended := fun _ hend => hend
  owned := fun _ _ hid => Or.inl hid

/-- What is left of the sessions `ids` when they are given up. -/
structure Abandons (reg reg' : Registry) (ids : List Nat) : Prop where
  booked : reg'.Booked
  announces : reg.Announces reg'
  listed : reg'.listed = reg.listed
  others : ∀ id, id ∉ ids → reg'.any? id = reg.any? id
  ended : ∀ id ∈ ids, id ∈ reg.listed → reg'.Ended id

theorem abandons_abandon {reg : Registry} (h : reg.Booked) (id : Nat) :
    Abandons reg (abandon reg id) [id] := by
  have hsame : ∀ hended : id ∈ reg.listed → reg.Ended id, Abandons reg reg [id] := by
    intro hended
    refine ⟨h, .refl reg, rfl, fun _ _ => rfl, fun id' hid' => ?_⟩
    rw [List.mem_singleton] at hid'
    rw [hid']
    exact hended
  unfold abandon
  split
  · rename_i hfind
    refine hsame fun hid => ?_
    obtain ⟨session, hsession⟩ := h.known id hid
    rw [Registry.find?, if_pos (by simpa using hid), hsession] at hfind
    cases hfind
  · rename_i session hfind
    have hsession : reg.any? id = some session := by
      rw [Registry.find?] at hfind
      split at hfind
      · exact hfind
      · cases hfind
    split
    · rename_i hend
      exact hsame fun _ => ⟨session, hsession, hend⟩
    · rename_i hlive
      have hany := Registry.any?_perform h.numbered hsession (.invalidate lostReason)
      refine ⟨h.perform id (.invalidate lostReason),
        (Registry.perform_tells h.numbered h.heard id (.invalidate lostReason)).announces,
        (reg.listed_perform id (.invalidate lostReason)).1, ?_, ?_⟩
      · intro id' hid'
        rw [List.mem_singleton] at hid'
        exact (hany id').trans (if_neg (Ne.symm hid'))
      · intro id' hid' _
        rw [List.mem_singleton] at hid'
        refine ⟨_, (hany id').trans (if_pos hid'.symm), ?_⟩
        show (session.invalidate lostReason).1.isTerminal
        rw [Session.invalidate, if_neg hlive]
        rfl

theorem abandons_foldl {reg : Registry} (h : reg.Booked) (ids : List Nat) :
    Abandons reg (ids.foldl abandon reg) ids := by
  induction ids generalizing reg with
  | nil => exact ⟨h, .refl reg, rfl, fun _ _ => rfl, fun _ hid => absurd hid List.not_mem_nil⟩
  | cons id ids ih =>
      have hhead := abandons_abandon h id
      have htail := ih hhead.booked
      refine ⟨htail.booked, hhead.announces.trans htail.announces,
        htail.listed.trans hhead.listed, fun id' hid' => ?_, fun id' hid' hlisted => ?_⟩
      · rw [List.mem_cons, not_or] at hid'
        exact (htail.others id' hid'.2).trans (hhead.others id' (by simpa using hid'.1))
      · rcases List.mem_cons.mp hid' with rfl | hid'
        · exact htail.announces.ended (hhead.ended _ (List.mem_singleton_self _) hlisted)
        · exact htail.ended id' hid' (by rw [hhead.listed]; exact hlisted)

/-- The sessions of a lost connection have ended, and nobody else loses one. -/
theorem Accounted.lose (h : s.Accounted) (conn : Nat) (links : Table Nat Link)
    (hlinks : ∀ conn', conn' ≠ conn → s.links.has conn' → links.has conn') :
    let registry := ((s.sessionsOf conn).foldl abandon s.station.registry).reap.2
    s.Keeps { s with
      links := links
      owners := s.owners.erase conn
      station := { s.station with registry := registry } } := by
  intro registry
  have habandons := abandons_foldl h.registry.toBooked (s.sessionsOf conn)
  have hreaped := habandons.booked.reap
  have htells := Registry.reap_tells habandons.booked.numbered habandons.booked.heard
  have hannounces := habandons.announces.trans htells.announces
  obtain ⟨generation, hreap⟩ := ((s.sessionsOf conn).foldl abandon s.station.registry).reap_eq
  have hlisted : ∀ id, id ∈ registry.listed ↔
      id ∈ s.station.registry.listed ∧ id ∉ s.sessionsOf conn := by
    intro id
    have hmem : id ∈ registry.listed ↔ ∃ session, registry.any? id = some session ∧
        ¬ session.isTerminal := hreaped.mem_listed
    have hany : registry.any? id =
        ((s.sessionsOf conn).foldl abandon s.station.registry).any? id := by
      show Registry.any? (Registry.reap _).2 id = _
      rw [hreap]
      rfl
    rw [hmem, hany]
    by_cases hid : id ∈ s.sessionsOf conn
    · obtain ⟨session, hsession, hend⟩ := habandons.ended id hid (h.owned.mem hid)
      refine iff_of_false ?_ fun hlisted => hlisted.2 hid
      rintro ⟨session', hsession', hlive⟩
      rw [hsession] at hsession'
      cases hsession'
      exact hlive hend
    · rw [habandons.others id hid, ← h.registry.mem_listed]
      exact ⟨fun hlisted => ⟨hlisted, hid⟩, And.left⟩
  have hof : ∀ conn', sessionsOf { s with
      links := links, owners := s.owners.erase conn
      station := { s.station with registry := registry } } conn' =
      if conn = conn' then [] else s.sessionsOf conn' :=
    s.sessionsOf_erase conn
  constructor
  · exact {
      registry := hreaped
      board := h.board.announces hannounces
      registered := fun id hid => h.registered id ((hlisted id).mp hid).1
      owned := by
        rw [funext hof]
        exact h.owned.clear hlisted
      linked := by
        intro conn' hconn
        rw [Table.has_erase, Bool.and_eq_true, Bool.not_eq_true', beq_eq_false_iff_ne] at hconn
        exact hlinks conn' hconn.1.symm (h.linked conn' hconn.2) }
  · exact fun id hend => hannounces.ended hend
  · intro conn' id hid
    rw [hof]
    split
    · rename_i hsame
      subst hsame
      exact Or.inr (htells.announces.ended (habandons.ended id hid (h.owned.mem hid)))
    · exact Or.inl hid

theorem Accounted.disconnect (h : s.Accounted) (conn : Nat) :
    s.Keeps (s.disconnect conn) ∧ (s.disconnect conn).sessionsOf conn = [] := by
  unfold Server.disconnect
  dsimp only
  have hclosed := Steady.foldl (fun s (f : Forwarder) => steady_closeFeed s f.feed)
    (((s.links.get? conn).map (·.forwarders)).getD []) s
  generalize List.foldl (fun s (f : Forwarder) => closeFeed s f.feed) s _ = s' at hclosed ⊢
  have hkeeps := h.steady hclosed
  refine ⟨hkeeps.trans (hkeeps.accounted.lose conn _ fun conn' hne hconn => ?_), ?_⟩
  · rw [Table.has_erase, hconn, Bool.and_true, Bool.not_eq_true', beq_eq_false_iff_ne]
    exact hne.symm
  · exact (s'.sessionsOf_erase conn conn).trans (if_pos rfl)

theorem Accounted.ended_disconnect (h : s.Accounted) (hid : id ∈ s.sessionsOf conn) :
    (s.disconnect conn).station.registry.Ended id := by
  obtain ⟨hdisconnect, hnone⟩ := h.disconnect conn
  rcases hdisconnect.owned conn id hid with hid | hend
  · rw [hnone] at hid
    cases hid
  · exact hend

end Patchbay.Server
