import Patchbay.Proofs.Server.Owners
import Patchbay.Proofs.Session.Spared

/-!
# What a connection can reach

A request is carried out on sessions of the connection that makes it, and on none if it names a
session that the connection does not own. A connection that is lost takes with it what it owns.
All that other sessions may get from either is another volume.
-/
namespace Patchbay

/-- The session that a request is about, by the number that the client gave. -/
def Wire.Request.session? : Wire.Request → Option Nat
  | .resolveBuffer id | .start id | .pause id _ | .resume id | .stop id | .release id
  | .handleInfo id => some id.toNat
  | _ => none

namespace Server

/-- From `s` to `s'` nothing happened to the session `id`, except that its volume may have been
set, and it has the owner that it had. -/
structure Spares (s s' : Server) (id : Nat) : Prop where
  registry : s.station.registry.Spares s'.station.registry id
  owners : ∀ conn, id ∈ s'.sessionsOf conn ↔ id ∈ s.sessionsOf conn

/-- What keeps connections apart: sessions do not share handles, those on the list live, and
each has one owner at most. -/
structure Sound (s : Server) : Prop where
  registry : s.station.registry.Accounted
  board : s.station.board.Orderly s.station.registry
  owned : ∀ conn, ∀ id ∈ s.sessionsOf conn, ∃ session, s.station.registry.any? id = some session
  separate : ∀ conn conn' id, id ∈ s.sessionsOf conn → id ∈ s.sessionsOf conn' → conn = conn'

/-- From `s` to `s'` something was done to the sessions `ids` and to none of the others. -/
structure Confines (s s' : Server) (ids : List Nat) : Prop where
  sound : s'.Sound
  spares : ∀ id session, s.station.registry.any? id = some session → id ∉ ids → s.Spares s' id

variable {s s' : Server} {conn id : Nat} {session : Session}

theorem Sound.later (h : s.Sound) (hreg : s'.station.registry.Accounted)
    (hboard : s'.station.board.Orderly s'.station.registry)
    (hannounces : s.station.registry.Announces s'.station.registry)
    (howners : ∀ conn, ∀ id ∈ s'.sessionsOf conn, id ∈ s.sessionsOf conn) : s'.Sound where
  registry := hreg
  board := hboard
  owned := by
    intro conn id hid
    obtain ⟨session, hsession⟩ := h.owned conn id (howners conn id hid)
    obtain ⟨session', hsession', -⟩ := hannounces.sessions id session hsession
    exact ⟨session', hsession'⟩
  separate := fun conn conn' id hid hid' =>
    h.separate conn conn' id (howners conn id hid) (howners conn' id hid')

theorem Sound.steady (h : s.Sound) (hst : s.Steady s') : s'.Sound :=
  h.later (h.registry.goesOn hst.registry)
    ((h.board.goesOn hst.registry).congr hst.entries hst.readers hst.boxes)
    (hst.registry.tells h.registry.numbered h.registry.heard).announces
    fun conn id hid => by rw [← hst.sessionsOf]; exact hid

theorem Sound.confines (h : s.Sound) (hst : s.Steady s') {ids : List Nat}
    (hspares : ∀ id, id ∉ ids → s.station.registry.Spares s'.station.registry id) :
    s.Confines s' ids :=
  ⟨h.steady hst, fun id _ _ hid => ⟨hspares id hid, fun conn => by rw [hst.sessionsOf]⟩⟩

theorem ne_of_owned (h : s.owned conn id = .ok ()) {other : Nat}
    (hother : other ∉ s.sessionsOf conn) : id ≠ other := by
  intro hsame
  exact hother (hsame ▸ mem_of_owned h)

theorem Sound.onSession (h : s.Sound) (conn id : Nat) (c : SessionCall)
    {op : Session → Except StreamError Unit × Session}
    (hop : ∀ session : Session, session.GoesOn (op session).2)
    (hcall : (s.station.registry.apply id op).2 = s.station.registry.perform id c) :
    s.Confines (s.onSession conn id op).2 (s.sessionsOf conn) := by
  refine h.confines (steady_onSession h.registry.numbered conn id hop) fun other hother => ?_
  unfold Server.onSession
  split
  · exact .refl _ other
  · rename_i howned
    show s.station.registry.Spares (s.station.registry.apply id op).2 other
    rw [hcall]
    exact h.registry.spares_perform (ne_of_owned howned hother) c

theorem handle_of_resolve {r r' : Registry} {handle : Handle} (hr : r.Numbered)
    (h : r.apply id (·.resolve) = (.ok handle, r')) :
    ∃ t, r'.any? id = some t ∧ t.handle = handle := by
  cases hs : r.any? id with
  | none =>
      rw [Registry.apply, hs] at h
      cases h
  | some t =>
      have hany := Registry.any?_perform hr hs .resolve id
      rw [if_pos rfl] at hany
      have hr' : (r.perform id .resolve) = r' := congrArg Prod.snd h
      rw [hr'] at hany
      refine ⟨_, hany, ?_⟩
      have hanswer : t.resolve.1 = .ok handle := by
        rw [Registry.apply, hs] at h
        exact congrArg Prod.fst h
      show t.resolve.2.handle = handle
      rw [t.goesOn_resolve.handle]
      unfold Session.resolve at hanswer
      split at hanswer
      · cases hanswer
      · split at hanswer <;>
          · cases hanswer
            rfl

theorem Sound.resolve (h : s.Sound) (conn id : Nat) :
    s.Confines (s.resolve conn id).2 (s.sessionsOf conn) := by
  refine h.confines (steady_resolve h.registry.numbered conn id) fun other hother => ?_
  unfold Server.resolve
  split
  · exact .refl _ other
  · rename_i howned
    have hne := ne_of_owned howned hother
    have hresolve := h.registry.spares_perform hne .resolve
    have hbooked := h.registry.toBooked.perform id .resolve
    unfold Station.apply
    cases happly : s.station.registry.apply id (·.resolve) with
    | mk answer registry =>
        have hregistry : s.station.registry.perform id .resolve = registry :=
          congrArg Prod.snd happly
        rw [hregistry] at hresolve hbooked
        cases answer with
        | error e => exact hresolve
        | ok handle =>
            obtain ⟨t, ht, hhandle⟩ := handle_of_resolve h.registry.numbered happly
            have hclaim := hbooked.spares_claim ht hne
            rw [hhandle] at hclaim
            dsimp only
            split <;> exact hresolve.trans hclaim

theorem listed_of_owned (h : s.owned conn id = .ok ()) : id ∈ s.station.registry.listed := by
  unfold owned at h
  split at h
  · unfold Registry.get Registry.find? at h
    by_cases hlisted : s.station.registry.listed.contains id
    · simpa using hlisted
    · rw [if_neg hlisted] at h
      cases h
  · cases h

theorem Sound.release (h : s.Sound) (conn id : Nat) :
    s.Confines (s.release conn id).2 (s.sessionsOf conn) := by
  unfold Server.release
  split
  · exact h.confines (.refl s) fun other _ => .refl _ other
  · rename_i howned
    obtain ⟨hremove, -, -⟩ := h.registry.remove (listed_of_owned howned)
    have hannounces := (Registry.remove_tells h.registry.numbered h.registry.heard id).announces
    have hof : ∀ conn', sessionsOf { s with
        station := { s.station with registry := (s.station.registry.remove id).2 }
        owners := s.owners.modify conn fun ids => ids.filter (· ≠ id) } conn' =
        if conn = conn' then (s.sessionsOf conn').filter (· ≠ id) else s.sessionsOf conn' :=
      s.sessionsOf_filter conn _
    have hmem : ∀ conn' other, other ∈ (if conn = conn' then (s.sessionsOf conn').filter (· ≠ id)
        else s.sessionsOf conn') → other ∈ s.sessionsOf conn' := by
      intro conn' other hmem
      split at hmem
      · exact (List.mem_filter.mp hmem).1
      · exact hmem
    constructor
    · refine h.later hremove (h.board.announces hannounces) hannounces fun conn' other hother => ?_
      rw [hof] at hother
      exact hmem conn' other hother
    · intro other session hsession hother
      have hne := ne_of_owned howned hother
      refine ⟨h.registry.spares_remove hne, fun conn' => ?_⟩
      rw [hof]
      refine ⟨hmem conn' other, fun hin => ?_⟩
      split
      · exact List.mem_filter.mpr ⟨hin, decide_eq_true hne.symm⟩
      · exact hin

/-- The station has one more session; to the others nothing happened. -/
structure Adds (st st' : Station) (id : Nat) : Prop where
  next : id = st.registry.nextId
  registry : st'.registry.Accounted
  board : st'.board.Orderly st'.registry
  announces : st.registry.Announces st'.registry
  listed : id ∈ st'.registry.listed
  spares : ∀ other t, st.registry.any? other = some t → st.registry.Spares st'.registry other

theorem spares_register {r : Registry} (h : r.Booked) (b : Switchboard) (roster : Roster)
    (hne : session.id ≠ id) : r.Spares (b.register roster r session).2.2 id := by
  rcases b.register_cases roster r session with hrefused | hbound
  · obtain ⟨e, registry, hregister, hregistry⟩ := hrefused
    rw [hregister]
    rcases hregistry with hsame | hbound
    · rw [hsame.2]
      exact .refl r id
    · obtain ⟨d, hd⟩ := hbound
      rw [hd]
      exact h.spares_perform hne (.bind d)
  · obtain ⟨d, previous, -, -, hregister⟩ := hbound
    rw [hregister]
    exact h.spares_perform hne (.bind d)

theorem Sound.adds (h : s.Sound) {config : StreamConfig} {registry : Registry}
    (hmade : s.station.registry.create config = (.ok session, registry)) :
    let st := Station.attach { s.station with registry := registry } session.id
    Adds s.station (st.register session).2 session.id := by
  intro st
  obtain ⟨hnext, -, hattached, hlisted, hannounces, t, ht⟩ :=
    create_attach h.registry hmade s.station.desk
  have horderly : st.board.Orderly st.registry := h.board.announces hannounces
  obtain ⟨hboard, hgoes⟩ := horderly.register hattached.numbered ht st.roster
  have hlater := (hgoes.tells hattached.numbered hattached.heard).announces
  constructor
  · exact hnext
  · exact hattached.goesOn hgoes
  · exact hboard
  · exact hannounces.trans hlater
  · show session.id ∈ (st.board.register st.roster st.registry session).2.2.listed
    rw [hgoes.listed]
    show session.id ∈ (s.station.desk.attach registry session.id).listed
    rw [hlisted]
    exact List.mem_append_right _ (List.mem_singleton_self _)
  · intro other t hother
    have hne : session.id ≠ other := by
      rw [hnext]
      exact h.registry.numbered.next_ne hother
    have hcreate := h.registry.spares_create hother config
    rw [hmade] at hcreate
    have hattach : registry.Spares st.registry other :=
      registry.spares_modify fun hsame => absurd hsame hne
    have hregister := spares_register hattached.toBooked st.board st.roster hne
    exact (hcreate.trans hattach).trans hregister

theorem registry_adopt (s : Server) (conn id box : Nat) :
    (s.adopt conn id box).station.registry = s.station.registry := by
  unfold adopt
  dsimp only
  split <;> rfl

theorem mem_sessionsOf_adopt_iff (s : Server) (conn id box conn' other : Nat) :
    other ∈ (s.adopt conn id box).sessionsOf conn' ↔
      other ∈ s.sessionsOf conn' ∨ conn' = conn ∧ other = id := by
  rw [(steady_adopt s conn id box).sessionsOf, sessionsOf_put]
  by_cases hsame : conn = conn'
  · rw [if_pos hsame, List.mem_append, List.mem_singleton, hsame]
    simp
  · rw [if_neg hsame]
    simp [Ne.symm hsame]

theorem Sound.adopt (h : s.Sound) {st : Station} (hadds : Adds s.station st id) (conn box : Nat) :
    s.Confines ({ s with station := st }.adopt conn id box) [] := by
  have hof : ∀ conn' other, other ∈ ({ s with station := st }.adopt conn id box).sessionsOf conn' ↔
      other ∈ s.sessionsOf conn' ∨ conn' = conn ∧ other = id :=
    mem_sessionsOf_adopt_iff { s with station := st } conn id box
  have hregistry := registry_adopt { s with station := st } conn id box
  have hsteady := steady_adopt { s with station := st } conn id box
  have hnew : ∀ conn', id ∉ s.sessionsOf conn' := by
    intro conn' hid
    obtain ⟨session, hsession⟩ := h.owned conn' id hid
    exact h.registry.numbered.next_ne hsession hadds.next.symm
  constructor
  · constructor
    · rw [hregistry]
      exact hadds.registry
    · exact (hadds.board.goesOn hsteady.registry).congr hsteady.entries hsteady.readers
        hsteady.boxes
    · intro conn' other hother
      rw [hregistry]
      rcases (hof conn' other).mp hother with hold | hgiven
      · obtain ⟨session, hsession⟩ := h.owned conn' other hold
        obtain ⟨session', hsession', -⟩ := hadds.announces.sessions other session hsession
        exact ⟨session', hsession'⟩
      · rw [hgiven.2]
        exact hadds.registry.known id hadds.listed
    · intro conn₁ conn₂ other h₁ h₂
      rw [hof] at h₁ h₂
      rcases h₁ with hold₁ | hgiven₁
      · rcases h₂ with hold₂ | hgiven₂
        · exact h.separate conn₁ conn₂ other hold₁ hold₂
        · exact absurd (hgiven₂.2 ▸ hold₁) (hnew conn₁)
      · rcases h₂ with hold₂ | hgiven₂
        · exact absurd (hgiven₁.2 ▸ hold₂) (hnew conn₂)
        · exact hgiven₁.1.trans hgiven₂.1.symm
  · intro other session hsession _
    constructor
    · rw [hregistry]
      exact hadds.spares other session hsession
    · intro conn'
      rw [hof]
      refine or_iff_left fun hgiven => ?_
      exact h.registry.numbered.next_ne hsession (hadds.next.symm.trans hgiven.2.symm)

theorem Sound.createSession (h : s.Sound) (conn : Nat) (config : StreamConfig) :
    s.Confines (s.createSession conn config).2 [] := by
  unfold Server.createSession
  cases hmade : s.station.registry.create config with
  | mk made registry =>
      cases made with
      | error e =>
          have hcreate := h.registry.create config
          have hannounces :=
            (Registry.create_tells h.registry.numbered h.registry.heard config).announces
          rw [hmade] at hcreate hannounces
          constructor
          · exact h.later hcreate (h.board.announces hannounces) hannounces fun _ _ hid => hid
          · intro other t hother _
            have hspared := h.registry.spares_create hother config
            rw [hmade] at hspared
            exact ⟨hspared, fun _ => Iff.rfl⟩
      | ok session =>
          have hadds := h.adds hmade
          dsimp only at hadds ⊢
          generalize Station.register _ session = registered at hadds ⊢
          obtain ⟨answer, st⟩ := registered
          dsimp only at hadds
          cases answer with
          | error e =>
              obtain ⟨hremove, -, -⟩ := hadds.registry.remove hadds.listed
              have hgone := (Registry.remove_tells hadds.registry.numbered
                hadds.registry.heard session.id).announces
              constructor
              · exact h.later hremove (hadds.board.announces hgone)
                  (hadds.announces.trans hgone) fun _ _ hid => hid
              · intro other t hother _
                have hne : session.id ≠ other := by
                  rw [hadds.next]
                  exact h.registry.numbered.next_ne hother
                have hspared := (hadds.spares other t hother).trans
                  (hadds.registry.spares_remove hne)
                exact ⟨hspared, fun _ => Iff.rfl⟩
          | ok decided => exact h.adopt hadds conn decided.2

/-- Whatever a connection asks for, it is done to no session but its own. -/
theorem Sound.handle (h : s.Sound) (conn : Nat) (r : Wire.Request) :
    s.Confines (s.handle conn r).2 (s.sessionsOf conn) := by
  have hnothing : s.Confines s (s.sessionsOf conn) := h.confines (.refl s) fun id _ => .refl _ id
  cases r with
  | createSession config =>
      have hcreate := h.createSession conn config
      exact ⟨hcreate.sound, fun id t ht _ => hcreate.spares id t ht List.not_mem_nil⟩
  | resolveBuffer id => exact h.resolve conn id.toNat
  | start id => exact h.onSession conn id.toNat .start Session.goesOn_start rfl
  | pause id discard =>
      exact h.onSession conn id.toNat (.pause discard) (fun t => t.goesOn_pause discard) rfl
  | resume id => exact h.onSession conn id.toNat .resume Session.goesOn_resume rfl
  | stop id => exact h.onSession conn id.toNat .stop Session.goesOn_stop rfl
  | release id => exact h.release conn id.toNat
  | handleInfo id => exact hnothing
  | devices role privacy => exact hnothing
  | setVolume c v =>
      refine h.confines ?_ fun id _ => Registry.spares_setVolume _ _ c v id
      exact steady_of_station (s.station.desk.setVolume_goesOn _ c v) rfl
  | volume c => exact hnothing
  | setMuted c m =>
      refine h.confines ?_ fun id _ => Registry.spares_push _ _ _ id
      exact steady_of_station (VolumeDesk.push_goesOn _ _ _) rfl
  | isMuted c => exact hnothing
  | isActive c => exact hnothing
  | setDeviceActive t active =>
      refine h.confines ?_ fun id _ => .refl _ id
      exact steady_of_station (.refl _) rfl
  | isDeviceActive t => exact hnothing
  | setRinger m =>
      refine h.confines ?_ fun id _ => Registry.spares_push _ _ _ id
      exact steady_of_station (VolumeDesk.push_goesOn _ _ _) rfl
  | ringer => exact hnothing
  | parameter key => exact hnothing
  | setParameter key value =>
      refine h.confines ?_ fun id _ => .refl _ id
      exact steady_of_station (.refl _) rfl
  | remoteParameter network key condition => exact hnothing
  | setRemoteParameter network key condition value =>
      refine h.confines ?_ fun id _ => .refl _ id
      exact steady_of_station (.refl _) rfl

/-- A session of another, one that was released and one that never was are all the same. -/
theorem handle_of_not_owned {r : Wire.Request} (hr : r.session? = some id)
    (hid : id ∉ s.sessionsOf conn) : s.handle conn r = (.error .notFound, s) := by
  have howned : s.owned conn id = .error .notFound := by
    rw [owned, if_neg]
    simpa using hid
  have honSession : ∀ op, s.onSession conn id op = (.error .notFound, s) := by
    intro op
    rw [onSession, howned]
  cases r with
  | resolveBuffer n =>
      cases hr
      rw [handle, Server.resolve, howned]
  | release n =>
      cases hr
      rw [handle, Server.release, howned]
  | handleInfo n =>
      cases hr
      rw [handle, Server.handleInfo, howned]
  | start n => cases hr; exact honSession _
  | pause n discard => cases hr; exact honSession _
  | resume n => cases hr; exact honSession _
  | stop n => cases hr; exact honSession _
  | _ => cases hr

theorem registry_closeFeeds (s : Server) (fs : List Forwarder) :
    (fs.foldl (fun s f => s.closeFeed f.feed) s).station.registry = s.station.registry := by
  induction fs generalizing s with
  | nil => rfl
  | cons f fs ih =>
      have hclose : (s.closeFeed f.feed).station.registry = s.station.registry := by
        unfold closeFeed
        split <;> rfl
      exact (ih (s.closeFeed f.feed)).trans hclose

theorem spares_abandon {r : Registry} (h : r.Booked) {ids : List Nat} (hid : id ∉ ids) :
    r.Spares (ids.foldl abandon r) id := by
  induction ids generalizing r with
  | nil => exact .refl r id
  | cons other ids ih =>
      rw [List.mem_cons, not_or] at hid
      have hfirst : r.Spares (abandon r other) id := by
        unfold abandon
        split
        · exact .refl r id
        · split
          · exact .refl r id
          · exact h.spares_perform (Ne.symm hid.1) (.invalidate lostReason)
      exact hfirst.trans (ih (abandons_abandon h other).booked hid.2)

/-- The connection that is lost takes its own sessions with it, and no others. -/
theorem Sound.disconnect (h : s.Sound) (conn : Nat) :
    s.Confines (s.disconnect conn) (s.sessionsOf conn) := by
  unfold Server.disconnect
  dsimp only
  have hclosed := Steady.foldl (fun s (f : Forwarder) => steady_closeFeed s f.feed)
    (((s.links.get? conn).map (·.forwarders)).getD []) s
  have hregistry :=
    s.registry_closeFeeds (((s.links.get? conn).map (·.forwarders)).getD [])
  have hsound := h.steady hclosed
  generalize List.foldl (fun s (f : Forwarder) => closeFeed s f.feed) s _ = s'
    at hclosed hregistry hsound ⊢
  have habandons := abandons_foldl hsound.registry.toBooked (s'.sessionsOf conn)
  have htells := Registry.reap_tells habandons.booked.numbered habandons.booked.heard
  have hannounces := habandons.announces.trans htells.announces
  have hof : ∀ conn' links, sessionsOf { s' with
      links := links, owners := s'.owners.erase conn
      station := { s'.station with registry :=
        ((s'.sessionsOf conn).foldl abandon s'.station.registry).reap.2 } } conn' =
      if conn = conn' then [] else s'.sessionsOf conn' :=
    fun conn' _ => s'.sessionsOf_erase conn conn'
  constructor
  · refine hsound.later habandons.booked.reap (hsound.board.announces hannounces) hannounces
      fun conn' id hid => ?_
    rw [hof] at hid
    split at hid
    · cases hid
    · exact hid
  · intro id session hsession hid
    rw [← hclosed.sessionsOf] at hid
    constructor
    · show s.station.registry.Spares
        ((s'.sessionsOf conn).foldl abandon s'.station.registry).reap.2 id
      rw [← hregistry] at hsession ⊢
      have hspared := spares_abandon hsound.registry.toBooked hid
      refine hspared.trans (Registry.spares_reap fun t ht hlisted => ?_)
      obtain ⟨controls, hsame⟩ := hspared.session session hsession
      rw [hsame] at ht
      cases ht
      exact hsound.registry.ended id (hspared.listed.mp hlisted) session hsession
    · intro conn'
      rw [hof, ← hclosed.sessionsOf conn']
      split
      · rename_i hsame
        rw [← hsame]
        exact iff_of_false List.not_mem_nil hid
      · exact Iff.rfl

end Server
end Patchbay
