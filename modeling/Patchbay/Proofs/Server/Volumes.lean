import Patchbay.Proofs.Level.Controls
import Patchbay.Proofs.Server.Isolation

/-!
# Volumes on a server

Whatever a server does, its listed sessions have the controls that its desk wants: what is done
to sessions leaves their controls alone, a new session is given those of its class, and what is
done to the desk is pushed.
-/
namespace Patchbay

/-- Changed settings are valid if the bounds of the levels are in order. -/
def ServerEvent.Valid : ServerEvent → Prop
  | .reload _ new => new.volume.minLevel ≤ new.volume.maxLevel
  | _ => True

namespace Server

/-- From `s` to `s'` the desk wants the same of all sessions, and the sessions have what they
had. -/
structure LeavesVolumes (s s' : Server) : Prop where
  classes : s'.station.desk.classes = s.station.desk.classes
  ringer : s'.station.desk.ringer = s.station.desk.ringer
  registry : s.station.registry.KeepsControls s'.station.registry

/-- The listed sessions have the controls that the desk wants, and all volumes are shares. -/
structure Governed (s : Server) : Prop where
  shares : s.station.desk.HoldsShares
  sessions : s.station.desk.Governs s.station.registry

variable {s s' s'' : Server} {conn id : Nat} {session : Session}

theorem LeavesVolumes.refl (s : Server) : s.LeavesVolumes s :=
  ⟨rfl, rfl, .refl _⟩

theorem LeavesVolumes.trans (h : s.LeavesVolumes s') (h' : s'.LeavesVolumes s'') :
    s.LeavesVolumes s'' :=
  ⟨h'.classes.trans h.classes, h'.ringer.trans h.ringer, h.registry.trans h'.registry⟩

theorem Governed.leaves (h : s.Governed) (hleaves : s.LeavesVolumes s') : s'.Governed where
  shares := by
    intro c
    rw [VolumeDesk.volume, VolumeDesk.entry, hleaves.classes]
    exact h.shares c
  sessions := by
    intro id hid session hsession
    rw [VolumeDesk.controls_congr hleaves.classes hleaves.ringer]
    exact h.sessions.keeps hleaves.registry id hid session hsession

theorem leavesVolumes_onSession (hr : s.station.registry.Numbered) (conn id : Nat)
    (c : SessionCall) {op : Session → Except StreamError Unit × Session}
    (hcall : (s.station.registry.apply id op).2 = s.station.registry.perform id c) :
    s.LeavesVolumes (s.onSession conn id op).2 := by
  unfold Server.onSession
  split
  · exact .refl s
  · refine ⟨rfl, rfl, ?_⟩
    show s.station.registry.KeepsControls (s.station.registry.apply id op).2
    rw [hcall]
    exact Registry.keepsControls_perform hr id c

theorem leavesVolumes_resolve (hr : s.station.registry.Numbered) (conn id : Nat) :
    s.LeavesVolumes (s.resolve conn id).2 := by
  have hresolve := Registry.keepsControls_perform hr id .resolve
  unfold Server.resolve
  split
  · exact .refl s
  · unfold Station.apply
    cases happly : s.station.registry.apply id (·.resolve) with
    | mk answer registry =>
        have hregistry : s.station.registry.perform id .resolve = registry :=
          congrArg Prod.snd happly
        rw [hregistry] at hresolve
        cases answer with
        | error e => exact ⟨rfl, rfl, hresolve⟩
        | ok handle =>
            dsimp only
            split <;> exact ⟨rfl, rfl, hresolve⟩

theorem leavesVolumes_release (hr : s.station.registry.Numbered) (conn id : Nat) :
    s.LeavesVolumes (s.release conn id).2 := by
  unfold Server.release
  split
  · exact .refl s
  · exact ⟨rfl, rfl, Registry.keepsControls_remove hr id⟩

theorem keepsControls_register {r : Registry} (hr : r.Numbered) (b : Switchboard)
    (roster : Roster) (session : Session) :
    r.KeepsControls (b.register roster r session).2.2 := by
  rcases b.register_cases roster r session with hrefused | hbound
  · obtain ⟨e, registry, hregister, hregistry⟩ := hrefused
    rw [hregister]
    rcases hregistry with hsame | hbound
    · rw [hsame.2]
      exact .refl r
    · obtain ⟨d, hd⟩ := hbound
      rw [hd]
      exact Registry.keepsControls_perform hr session.id (.bind d)
  · obtain ⟨d, previous, -, -, hregister⟩ := hbound
    rw [hregister]
    exact Registry.keepsControls_perform hr session.id (.bind d)

theorem desk_adopt (s : Server) (conn id box : Nat) :
    (s.adopt conn id box).station.desk = s.station.desk := by
  unfold adopt
  dsimp only
  split <;> rfl

theorem Governed.createSession (h : s.Governed) (hs : s.Sound) (conn : Nat)
    (config : StreamConfig) : (s.createSession conn config).2.Governed := by
  have hr := hs.registry.numbered
  unfold Server.createSession
  cases hmade : s.station.registry.create config with
  | mk made registry =>
      cases made with
      | error e =>
          refine h.leaves ⟨rfl, rfl, ?_⟩
          rcases s.station.registry.create_cases config with
            ⟨e, files, hcase⟩ | ⟨ring, files, -, hcase⟩
          · rw [hmade] at hcase
            cases hcase
            exact (Registry.KeepsControls.refl _).shrink (fun _ hid => hid) rfl fun _ => rfl
          · rw [hmade] at hcase
            cases hcase
      | ok session =>
          have hadds := hs.adds hmade
          have hattached := h.sessions.create h.shares hr hmade
          have hnumbered : (s.station.desk.attach registry session.id).Numbered :=
            (create_attach hs.registry hmade s.station.desk).2.2.1.numbered
          have hregister :=
            keepsControls_register hnumbered s.station.board s.station.roster session
          dsimp only at hadds ⊢
          unfold Station.register at hadds ⊢
          dsimp only [Station.attach] at hadds ⊢
          generalize Switchboard.register _ _ _ session = registered at hadds hregister ⊢
          obtain ⟨answer, board, registry'⟩ := registered
          dsimp only at hadds hregister ⊢
          have hrouted := hattached.keeps hregister
          cases answer with
          | error e =>
              refine ⟨h.shares, hrouted.keeps ?_⟩
              exact Registry.keepsControls_remove hadds.registry.numbered session.id
          | ok decided =>
              refine ⟨?_, ?_⟩
              · rw [desk_adopt]
                exact h.shares
              · rw [desk_adopt, registry_adopt]
                exact hrouted

theorem Governed.handle (h : s.Governed) (hs : s.Sound) (conn : Nat) (r : Wire.Request) :
    (s.handle conn r).2.Governed := by
  have hr := hs.registry.numbered
  have hlisted := hs.registry.distinct
  cases r with
  | createSession config => exact h.createSession hs conn config
  | resolveBuffer id => exact h.leaves (leavesVolumes_resolve hr conn _)
  | start id => exact h.leaves (leavesVolumes_onSession hr conn _ .start rfl)
  | pause id discard => exact h.leaves (leavesVolumes_onSession hr conn _ (.pause discard) rfl)
  | resume id => exact h.leaves (leavesVolumes_onSession hr conn _ .resume rfl)
  | stop id => exact h.leaves (leavesVolumes_onSession hr conn _ .stop rfl)
  | release id => exact h.leaves (leavesVolumes_release hr conn _)
  | handleInfo id => exact h
  | devices role privacy => exact h
  | setVolume c v =>
      obtain ⟨hshares, hsessions⟩ := h.sessions.setVolume h.shares hlisted c v
      exact ⟨hshares, hsessions⟩
  | volume c => exact h
  | setMuted c m =>
      obtain ⟨hshares, hsessions⟩ := h.sessions.setMuted h.shares hlisted c m
      exact ⟨hshares, hsessions⟩
  | isMuted c => exact h
  | isActive c => exact h
  | setDeviceActive t active =>
      obtain ⟨hclasses, hringer⟩ := s.station.desk.setDeviceActive_keeps t active
      exact h.leaves ⟨hclasses, hringer, .refl _⟩
  | isDeviceActive t => exact h
  | setRinger m =>
      obtain ⟨hshares, hsessions⟩ := h.sessions.setRinger h.shares hlisted m
      exact ⟨hshares, hsessions⟩
  | ringer => exact h
  | parameter key => exact h
  | setParameter key value => exact h.leaves ⟨rfl, rfl, .refl _⟩
  | remoteParameter network key condition => exact h
  | setRemoteParameter network key condition value => exact h.leaves ⟨rfl, rfl, .refl _⟩

theorem leavesVolumes_closeFeed (s : Server) (feed : Feed) :
    s.LeavesVolumes (s.closeFeed feed) := by
  cases feed <;> exact ⟨rfl, rfl, .refl _⟩

theorem leavesVolumes_forward (s : Server) (f : Forwarder) : s.LeavesVolumes (s.forward f) := by
  have htake : s.LeavesVolumes (s.takeFeed f.feed).2 := by
    cases f.feed <;> exact ⟨rfl, rfl, .refl _⟩
  unfold forward
  split
  · rename_i hnothing
    rw [hnothing] at htake
    exact htake
  · rename_i htaken
    rw [htaken] at htake
    split
    · exact htake.trans ⟨rfl, rfl, .refl _⟩
    · exact htake.trans (leavesVolumes_closeFeed _ _)

theorem LeavesVolumes.foldl {α : Type} {f : Server → α → Server}
    (hf : ∀ s a, LeavesVolumes s (f s a)) (l : List α) (s : Server) :
    s.LeavesVolumes (l.foldl f s) := by
  induction l generalizing s with
  | nil => exact .refl s
  | cons a l ih => exact (hf s a).trans (ih _)

theorem keepsControls_abandon {r : Registry} (h : r.Booked) (ids : List Nat) :
    r.KeepsControls (ids.foldl abandon r) := by
  induction ids generalizing r with
  | nil => exact .refl r
  | cons id ids ih =>
      have hfirst : r.KeepsControls (abandon r id) := by
        unfold abandon
        split
        · exact .refl r
        · split
          · exact .refl r
          · exact Registry.keepsControls_perform h.numbered id (.invalidate lostReason)
      exact hfirst.trans (ih (abandons_abandon h id).booked)

theorem leavesVolumes_disconnect (hs : s.Sound) (conn : Nat) :
    s.LeavesVolumes (s.disconnect conn) := by
  unfold Server.disconnect
  dsimp only
  have hclosed := LeavesVolumes.foldl (fun s (f : Forwarder) => leavesVolumes_closeFeed s f.feed)
    (((s.links.get? conn).map (·.forwarders)).getD []) s
  have hregistry :=
    s.registry_closeFeeds (((s.links.get? conn).map (·.forwarders)).getD [])
  generalize List.foldl (fun s (f : Forwarder) => closeFeed s f.feed) s _ = s'
    at hclosed hregistry ⊢
  have hbooked : s'.station.registry.Booked := hregistry ▸ hs.registry.toBooked
  refine hclosed.trans ⟨rfl, rfl, ?_⟩
  exact (keepsControls_abandon hbooked _).trans (Registry.keepsControls_reap _)

theorem keepsControls_handleChange {r : Registry} (hr : r.Numbered) {b : Switchboard}
    (roster : Roster) (change : DeviceChange) :
    r.KeepsControls (b.handleChange roster r change).2.2 := by
  refine Switchboard.handleChange_induction (P := fun _ r' => r.KeepsControls r') roster change hr
    (.refl r) ?_ (fun _ _ _ _ hkeeps _ => hkeeps) (fun _ _ _ hkeeps => hkeeps)
  intro w w' id e hnumbered hkeeps _ hvisit
  cases hvisit with
  | skip => exact hkeeps
  | give d => exact hkeeps.trans (Registry.keepsControls_perform hnumbered id (.bind d))
  | move d => exact hkeeps.trans (Registry.keepsControls_perform hnumbered id (.bind d))

theorem leavesVolumes_change (hs : s.Sound) : s.LeavesVolumes (s.withStep .change) := by
  show s.LeavesVolumes { s with station := s.station.nextChange.2 }
  unfold Station.nextChange
  split
  · exact .refl s
  · exact ⟨rfl, rfl, keepsControls_handleChange hs.registry.numbered _ _⟩

theorem leavesVolumes_event (s : Server) : s.LeavesVolumes (s.withStep .event) := by
  show s.LeavesVolumes { s with station := s.station.nextEvent.2 }
  unfold Station.nextEvent
  split
  · exact .refl s
  · exact ⟨rfl, rfl, (Registry.KeepsControls.refl _).shrink (fun _ hid => hid) rfl fun _ => rfl⟩

theorem Governed.step (h : s.Governed) (hs : s.Sound) (t : ServerStep) : (s.step t).Governed := by
  cases t with
  | connect conn => exact h.leaves ⟨rfl, rfl, .refl _⟩
  | disconnect conn => exact h.leaves (leavesVolumes_disconnect hs conn)
  | request conn r =>
      show Governed (if s.isLinked conn then (s.handle conn r).2 else s)
      split
      · exact h.handle hs conn r
      · exact h
  | devices t => cases t <;> exact h.leaves ⟨rfl, rfl, .refl _⟩
  | change => exact h.leaves (leavesVolumes_change hs)
  | event => exact h.leaves s.leavesVolumes_event
  | share id m =>
      refine h.leaves ⟨rfl, rfl, ?_⟩
      exact s.station.registry.keepsControls_modify id fun _ => ⟨rfl, rfl⟩
  | forward => exact h.leaves (LeavesVolumes.foldl leavesVolumes_forward s.forwarders s)
  | readLine line => exact h.leaves ⟨rfl, rfl, .refl _⟩
  | closeLine line => exact h.leaves ⟨rfl, rfl, .refl _⟩

theorem Governed.meet (h : s.Governed) (hs : s.Sound) {e : ServerEvent} (he : e.Valid) :
    (s.meet e).Governed := by
  have hr := hs.registry.numbered
  cases e with
  | step t => exact h.step hs t
  | ask conn r => exact h.handle hs conn r
  | take id want => exact h.leaves ⟨rfl, rfl, Registry.keepsControls_perform hr id (.read want)⟩
  | queue id span timestamp =>
      exact h.leaves ⟨rfl, rfl, Registry.keepsControls_perform hr id (.write span timestamp)⟩
  | reload d new =>
      unfold Server.meet Station.reload
      dsimp only
      split
      · exact h.leaves ⟨rfl, rfl, .refl _⟩
      · obtain ⟨hshares, hsessions⟩ :=
          h.sessions.applyLevels h.shares hs.registry.distinct d.volume he
        exact ⟨hshares, hsessions⟩

theorem Governed.after (h : s.Governed) (hs : s.Sound) {events : List ServerEvent}
    (hvalid : ∀ e ∈ events, e.Valid) : (s.after events).Governed := by
  induction events generalizing s with
  | nil => exact h
  | cons e later ih =>
      refine ih (h.meet hs (hvalid e List.mem_cons_self)) (hs.meet e) fun e' he' => ?_
      exact hvalid e' (List.mem_cons_of_mem _ he')

theorem Unused.governed (h : s.Unused) {v : VolumeSettings} (hv : v.minLevel ≤ v.maxLevel)
    (hdesk : s.station.desk = .ofSettings v) : s.Governed where
  shares := by
    rw [hdesk]
    exact VolumeDesk.holdsShares_ofSettings hv
  sessions := by
    intro id hid
    rw [h.station.registry] at hid
    cases hid

end Server

/-- After all that may have happened to a server with valid settings of its volumes: a listed
session that plays has the volume of its class, which is from zero to one, and is silent if its
class is muted, or if it rings and the ringer mode is another than normal; a listed recording has
full volume; and a volume that is refused changes nothing. -/
theorem sessions_follow_desk {start : Server} (hstart : start.Unused) {v : VolumeSettings}
    (hv : v.minLevel ≤ v.maxLevel) (hdesk : start.station.desk = .ofSettings v)
    (events : List ServerEvent) (hvalid : ∀ e ∈ events, e.Valid) :
    let s := start.after events
    let desk := s.station.desk
    (∀ c, Single.zero.le (desk.volume c) ∧ (desk.volume c).le Single.one) ∧
      (∀ session ∈ s.station.registry.all,
        (∀ u, session.intent = .render u →
          session.controls.volume = desk.volume u.volumeClass ∧
            session.controls.isMuted = (desk.isMuted u.volumeClass ||
              (u.volumeClass = .ring && desk.ringer ≠ .normal))) ∧
        ∀ source, session.intent = .capture source →
          session.controls = { volume := Single.one, isMuted := false }) ∧
      ∀ conn c x e, (s.handle conn (.setVolume c x)).1 = .error e →
        (s.handle conn (.setVolume c x)).2 = s := by
  intro s desk
  have h : s.Governed := (hstart.governed hv hdesk).after hstart.sound hvalid
  refine ⟨h.shares, fun session hsession => ?_, fun conn c x e herror => ?_⟩
  · obtain ⟨id, hid, hany⟩ := List.mem_filterMap.mp hsession
    have hcontrols := h.sessions id hid session hany
    refine ⟨fun u hu => ?_, fun source hsource => ?_⟩
    · rw [hcontrols, hu]
      exact ⟨rfl, rfl⟩
    · rw [hcontrols, hsource]
      rfl
  · unfold Server.handle Server.onStation Station.setVolume VolumeDesk.setVolume at herror ⊢
    dsimp only at herror ⊢
    split
    · rename_i hshare
      rw [if_pos hshare] at herror
      cases herror
    · rfl

theorem ringtone_follows_silent_ringer :
    let start : Server := { station := .vacant ∅ {} none }
    let half : Single := ⟨0x3f000000⟩
    let events : List ServerEvent :=
      [.ask 1 (.createSession ⟨.render .music, {}, 1000, 16, 4⟩), .ask 2 (.setVolume .music half),
        .ask 2 (.setRinger .silent), .ask 1 (.createSession ⟨.render .ringtone, {}, 1000, 16, 4⟩),
        .reload ⟨none, [(.ring, 200)], [], []⟩ {}]
    let s := start.after events
    start.Unused ∧ (∀ e ∈ events, e.Valid) ∧
      (s.station.registry.any? 1).map (·.controls) = some ⟨half, false⟩ ∧
      (∃ session ∈ s.station.registry.all, session.intent = .render .ringtone ∧
        session.controls.volume = s.station.desk.volume .ring ∧
        session.controls.isMuted = true) ∧
      s.station.desk.volume .ring = Single.one ∧
      (s.handle 1 (.setVolume .ring ⟨0x40000000⟩)).2 = s := by
  intro start half events s
  have hstart : start.Unused := ⟨⟨rfl, rfl⟩, rfl, rfl⟩
  have hvalid : ∀ e ∈ events, e.Valid := by simp [events, ServerEvent.Valid]
  obtain ⟨-, hsessions, hrefused⟩ :=
    sessions_follow_desk (v := {}) hstart (by decide) rfl events hvalid
  have hringtone : (s.station.registry.any? 2).isSome := by decide +kernel
  obtain ⟨session, hsession⟩ := Option.isSome_iff_exists.mp hringtone
  have hintent : (s.station.registry.any? 2).map (·.intent) = some (.render .ringtone) := by
    decide +kernel
  rw [hsession] at hintent
  have hmem : session ∈ s.station.registry.all := by
    have hlisted : 2 ∈ s.station.registry.listed := by decide +kernel
    exact List.mem_filterMap.mpr ⟨2, hlisted, hsession⟩
  obtain ⟨hvolume, hmuted⟩ := (hsessions session hmem).1 .ringtone (Option.some.inj hintent)
  have hringer : s.station.desk.ringer = .silent := by decide +kernel
  refine ⟨hstart, hvalid, by decide +kernel, ⟨session, hmem, Option.some.inj hintent, hvolume, ?_⟩,
    by decide +kernel, hrefused 1 .ring ⟨0x40000000⟩ .invalidParam ?_⟩
  · rw [hmuted, hringer]
    exact Bool.or_true _
  · decide +kernel

end Patchbay
